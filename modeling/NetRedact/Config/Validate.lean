import NetRedact.Address.Socket
import NetRedact.Config.Decode
import NetRedact.Text.Quoted

/-!
# Checking a configuration

The checks run in a fixed order, and the first that fails is reported: the address, the numbers,
the backend, the secret.  A configuration that passes has a socket address, a key whenever keyed
surrogates are wanted, and can be served from.
-/

namespace NetRedact

open NetRedact.Text

/-- Why the gateway cannot run with a configuration. -/
inductive ConfigError where
  /-- Keyed surrogates are wanted, but there is no secret. -/
  | missingSecret
  /-- The secret is shorter than it must be. -/
  | secretTooShort (size : Nat)
  /-- A number is outside its range. -/
  | outOfRange (field : String) (value min max : Nat)
  /-- The backend is Redis, but there is no address of a server. -/
  | missingRedisUrl
  /-- The place to listen at is no socket address. -/
  | invalidBind (bind : String)
  /-- The name space for records in Redis is empty. -/
  | emptyNamespace
  /-- The secret gives no key. -/
  | key (error : RedactError)
  deriving DecidableEq, Repr

/-- The text of an error. -/
def ConfigError.message : ConfigError → String
  | .missingSecret => "deterministic mode is enabled but no secret is configured"
  | .secretTooShort size =>
    "deterministic secret must be at least " ++ toString Secret.minSize ++ " bytes, got " ++
      toString size
  | .outOfRange field value min max =>
    field ++ " = " ++ toString value ++ " is outside " ++ toString min ++ "..=" ++ toString max
  | .missingRedisUrl => "mapping.backend = \"redis\" requires mapping.redis_url"
  | .invalidBind bind => "invalid bind address " ++ quotedString bind
  | .emptyNamespace => "mapping.redis_namespace must not be empty"
  | .key error => error.message

/-- A number with its name and its range, both ends included. -/
structure Bounded where
  field : String
  value : Nat
  min : Nat
  max : Nat

/-- Whether the number is in its range. -/
def Bounded.check (b : Bounded) : Except ConfigError Unit :=
  if b.min ≤ b.value ∧ b.value ≤ b.max then .ok ()
  else .error (.outOfRange b.field b.value b.min b.max)

namespace Config

/-- The address to listen at. -/
def bindAddress (c : Config) : Except ConfigError SocketAddress :=
  match SocketAddress.read? c.server.bind.toList with
  | some address => .ok address
  | none => .error (.invalidBind c.server.bind)

/-- The numbers that have a range. -/
def numbers (c : Config) : List Bounded :=
  [⟨"limits.max_payload_bytes", c.limits.maxPayloadBytes, 1024, 8388608⟩,
    ⟨"limits.rate_limit_requests", c.limits.rateLimitRequests, 1, maxWord32⟩,
    ⟨"limits.rate_limit_window_secs", c.limits.rateLimitWindowSecs, 1, maxWord64⟩,
    ⟨"limits.request_timeout_secs", c.limits.requestTimeoutSecs, 1, maxWord64⟩,
    ⟨"mapping.ttl_secs", c.mapping.ttlSecs, 60, maxWord64⟩,
    ⟨"mapping.cleanup_interval_secs", c.mapping.cleanupIntervalSecs, 30, maxWord64⟩]

/-- Whether the backend has what it needs. -/
def checkBackend (c : Config) : Except ConfigError Unit :=
  match c.mapping.backend with
  | .memory => .ok ()
  | .redis =>
    if (c.mapping.redisUrl.getD "").isEmpty then .error .missingRedisUrl
    else if c.mapping.redisNamespace.isEmpty then .error .emptyNamespace
    else .ok ()

/-- Whether there is a secret of sufficient length if one is needed. -/
def checkSecret (c : Config) : Except ConfigError Unit :=
  if c.deterministic.enabled then
    match c.deterministic.secret with
    | none => .error .missingSecret
    | some secret =>
      if secret.size = 0 then .error .missingSecret
      else if secret.size < Secret.minSize then .error (.secretTooShort secret.size)
      else .ok ()
  else .ok ()

/-- Whether the gateway can run with the configuration; if not, the first reason. -/
def validate (c : Config) : Except ConfigError Unit := do
  let _ ← c.bindAddress
  c.numbers.forM Bounded.check
  c.checkBackend
  c.checkSecret

/-- The key for surrogates: none if keyed surrogates are not wanted. -/
def deterministicKey (c : Config) : Except ConfigError (Option Key) :=
  if c.deterministic.enabled then
    match c.deterministic.secret with
    | none => .error .missingSecret
    | some secret =>
      match Key.ofSecret secret with
      | .ok key => .ok (some key)
      | .error e => .error (.key e)
  else .ok none

end Config

/-- The gateway that a configuration asks for, with its records in a given store. -/
def Gateway.ofConfig {σ : Type} (store : MappingStore σ) (c : Config) :
    Except ConfigError (Gateway σ) :=
  match c.deterministicKey with
  | .ok key => .ok ⟨store, key, .ofConfig c⟩
  | .error e => .error e

/-- The limiter that a configuration asks for, before any request. -/
def RateLimiter.ofConfig (c : Config) : RateLimiter :=
  .fresh c.limits.rateLimitRequests (.ofSeconds c.limits.rateLimitWindowSecs)

end NetRedact
