import NetRedact.Admission.Gateway
import NetRedact.Surrogate

/-!
# The configuration

All settings of the gateway with their defaults.  A configuration may hold anything that its
sources could spell; `Config.validate` says whether the gateway can run with it.
-/

namespace NetRedact

/-- Where records are kept. -/
inductive MappingBackend where
  /-- In the memory of the gateway. -/
  | memory
  /-- In a Redis server. -/
  | redis
  deriving DecidableEq, Repr, Inhabited

namespace MappingBackend

/-- The name of a backend. -/
def label : MappingBackend → String
  | .memory => "memory"
  | .redis => "redis"

/-- Every backend. -/
def all : List MappingBackend := [.memory, .redis]

/-- The backend with the given name. -/
def ofLabel? (name : String) : Option MappingBackend :=
  all.find? fun backend => backend.label == name

end MappingBackend

/-- Where the gateway listens. -/
structure ServerSettings where
  /-- The text of a socket address. -/
  bind : String := "127.0.0.1:8080"
  deriving DecidableEq

/-- The limits that hold for each request. -/
structure LimitSettings where
  maxPayloadBytes : Nat := 1048576
  rateLimitRequests : Nat := 120
  rateLimitWindowSecs : Nat := 60
  requestTimeoutSecs : Nat := 15
  deriving DecidableEq

/-- How records are kept. -/
structure MappingSettings where
  backend : MappingBackend := .memory
  ttlSecs : Nat := 86400
  cleanupIntervalSecs : Nat := 300
  redisUrl : Option String := none
  redisNamespace : String := "redact_mappings"
  deriving DecidableEq

/-- How surrogates are keyed. -/
structure DeterministicSettings where
  enabled : Bool := true
  secret : Option Secret := none
  salt : SaltPolicy := .perRequest
  deriving DecidableEq

/-- What is logged, and where. -/
structure LogSettings where
  level : String := "info"
  /-- Without a directory the log goes to standard error only. -/
  directory : Option String := none
  deriving DecidableEq

/-- The settings of the gateway. -/
structure Config where
  server : ServerSettings := {}
  limits : LimitSettings := {}
  mapping : MappingSettings := {}
  deterministic : DeterministicSettings := {}
  logging : LogSettings := {}
  deriving DecidableEq

instance : Inhabited Config := ⟨{}⟩

/-- The policy for requests under a configuration. -/
def AdmissionPolicy.ofConfig (c : Config) : AdmissionPolicy where
  maxPayloadBytes := c.limits.maxPayloadBytes
  requestTimeout := .ofSeconds c.limits.requestTimeoutSecs
  mappingTtl := .ofSeconds c.mapping.ttlSecs
  saltPolicy := c.deterministic.salt

end NetRedact
