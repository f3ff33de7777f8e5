import NetRedact.Admission.Gateway
import NetRedact.Http.Message
import NetRedact.Mapping.Codec

/-!
# The service

`POST /redact` takes a text, alone or in JSON with a mode, through the gateway; `GET /health` tells
that the service runs and `GET /health/ready` whether it can work.  The service only stands
between HTTP and the gateway: it adds no limit of its own but one on the size of a body, generous
enough for the JSON around the largest text.
-/

namespace NetRedact.Http

open NetRedact.Json NetRedact.Text

/-- The version that the service tells. -/
def version : String := "0.1.0"

/-- How many bytes a body may have beyond the largest text. -/
def envelopeAllowance : Nat := 65536

/-- A response with a JSON body. -/
def jsonResponse (status : Nat) (body : List Char) : Response :=
  ⟨status, [("content-type", "application/json")], body⟩

/-- A JSON object of strings. -/
def textObject (members : List (String × String)) : List Char :=
  object (members.map fun m => (m.1, quote m.2.toList))

/-- The response to a request that was not completed. -/
def errorResponse (status : Nat) (kind : ErrorKind) (detail : String) : Response :=
  jsonResponse status (textObject [("error", kind.label), ("detail", detail)])

/-- The status for a refusal. -/
def rejectionStatus : Rejection → Nat
  | .payloadTooLarge _ _ => 413
  | .rateLimited _ => 429
  | .malformedInput _ => 400
  | .modeUnavailable _ => 400

/-- The status for a failure. -/
def failureStatus : Failure → Nat
  | .timeout _ => 504
  | .storeUnavailable _ => 503
  | .engine _ => 500

/-- The largest number of seconds that can be given as a wait. -/
def maxWait : Nat := 18446744073709551615

/-- The seconds that a refused caller is told to wait: enough, and at least one. -/
def waitSeconds (retryAfter : Duration) : Nat :=
  max 1 (min maxWait (retryAfter.seconds + if 0 < retryAfter.subsecond then 1 else 0))

/-- The response for an outcome.  Of a failure no more than its kind is told. -/
def outcomeResponse : Outcome → Response
  | .completed done =>
    jsonResponse 200 (object [("mapping_id", quote done.handle.render),
      ("redacted_text", quote done.redactedText), ("mapping_count", decimal done.entryCount)])
  | .rejected rejection =>
    let response := errorResponse (rejectionStatus rejection) rejection.kind rejection.message
    match rejection with
    | .rateLimited retryAfter =>
      { response with
        headers := response.headers ++ [("retry-after", toString (waitSeconds retryAfter))] }
    | _ => response
  | .failed failure => errorResponse (failureStatus failure) failure.kind failure.kind.label

/-- Whether the body is said to be JSON. -/
def isJson (headers : List Header) : Bool :=
  match headerOf? headers "content-type" with
  | some value => "application/json".toList.isPrefixOf (trimFront value)
  | none => false

/-- The text and the mode that a JSON body asks for.  Without a mode it is random. -/
def readRequest? (body : List UInt8) : Option (List Char × RedactMode) := do
  match ← (← Json.read? body).fields? ["text", "mode"] with
  | [some text, mode] =>
    let text ← text.text?
    match mode with
    | none => pure (text, .random)
    | some mode => pure (text, ← RedactMode.ofJson? mode)
  | _ => none

/-- The identifier of a request: the one sent, if it is fit to be sent back, or a new one. -/
def requestId (headers : List Header) (draw : Octets 16) : String :=
  match headerOf? headers "x-request-id" with
  | some (c :: cs) =>
    if cs.length < 128 then String.ofList (c :: cs) else (Handle.ofDraw draw).toString
  | _ => (Handle.ofDraw draw).toString

/-- What requests and the process around the service change. -/
structure ServiceState (σ : Type) where
  gateway : GatewayState σ
  /-- Cleared when the process begins to shut down. -/
  ready : Bool

variable {σ : Type}

/-- Redacts the text of a request. -/
def redact (g : Gateway σ) (request : Request) (o : Occasion) (idDraw : Octets 16)
    (state : GatewayState σ) : Response × GatewayState σ :=
  let identity := clientIdentity request.headers request.peer
  let (response, state) :=
    if isJson request.headers then
      match readRequest? request.body with
      | some (text, mode) =>
        let (outcome, state) := g.process (utf8 text) mode identity o state
        (outcomeResponse outcome, state)
      | none => (errorResponse 400 .malformedInput "invalid JSON body", state)
    else
      let (outcome, state) := g.process request.body .random identity o state
      (outcomeResponse outcome, state)
  let id := requestId request.headers idDraw
  ({ response with headers := response.headers ++ [("x-request-id", id)] }, state)

/-- Tells whether the service can work.  The store is asked unless the service is ending. -/
def readiness (g : Gateway σ) (now : Moment) (state : ServiceState σ) :
    Response × ServiceState σ :=
  let answer (status : Nat) (name : String) : Response :=
    jsonResponse status (textObject [("status", name), ("backend", g.store.backend)])
  if !state.ready then (answer 503 "shutting_down", state)
  else
    let (result, records) := g.store.ping now state.gateway.records
    let state := { state with gateway := { state.gateway with records } }
    match result with
    | .ok () => (answer 200 "ready", state)
    | .error _ => (answer 503 "unavailable", state)

/-- The response to a body that is too large. -/
def bodyTooLarge : Response :=
  ⟨413, [("content-type", "text/plain; charset=utf-8")],
    "Failed to buffer the request body: length limit exceeded".toList⟩

/-- The response to a method that a path does not serve. -/
def methodNotAllowed (methods : String) : Response :=
  ⟨405, [("allow", methods)], []⟩

/-- A response as it is sent for a method: for `HEAD` without its body. -/
def forMethod (method : String) (response : Response) : Response :=
  if method = "HEAD" then { response with body := [] } else response

/-- Serves one request. -/
def handle (g : Gateway σ) (request : Request) (o : Occasion) (idDraw : Octets 16)
    (state : ServiceState σ) : Response × ServiceState σ :=
  let path := String.ofList (pathOf request.target)
  if path = "/redact" then
    if request.method ≠ "POST" then (methodNotAllowed "POST", state)
    else if g.policy.maxPayloadBytes + envelopeAllowance < request.body.length then
      (bodyTooLarge, state)
    else
      let (response, gateway) := redact g request o idDraw state.gateway
      (response, { state with gateway })
  else if path ≠ "/health" ∧ path ≠ "/health/ready" then (⟨404, [], []⟩, state)
  else if request.method ≠ "GET" ∧ request.method ≠ "HEAD" then
    (methodNotAllowed "GET,HEAD", state)
  else
    let (response, state) :=
      if path = "/health" then
        (jsonResponse 200 (textObject [("status", "ok"), ("version", version)]), state)
      else readiness g o.checkedAt state
    (forMethod request.method response, state)

end NetRedact.Http
