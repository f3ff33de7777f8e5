import NetRedact.Config.Decode
import NetRedact.Text.Blank
import NetRedact.Text.Decimal

/-!
# Settings from the environment

Each setting has a variable of its own.  A variable that is present and can be read replaces the
setting; any other leaves it as it was.  Texts are taken as they are, while numbers, truth values
and the salt policy may have white space around them.  The address of a Redis server also selects
the backend.
-/

namespace NetRedact

open NetRedact.Text

/-- The values of the variables that are set. -/
abbrev Environment := String → Option String

namespace Environment

/-- The value of a variable as `read` takes it, or the previous value of the setting. -/
def setting {α : Type} (env : Environment) (name : String) (read : String → Option α)
    (previous : α) : α :=
  ((env name).bind read).getD previous

/-- The value of a variable as it stands, or the previous value of the setting. -/
def verbatim (env : Environment) (name : String) (previous : String) : String :=
  (env name).getD previous

end Environment

/-- A number of at most `limit` with white space around it. -/
def trimmedNumber? (limit : Nat) (s : String) : Option Nat :=
  unsigned? limit (trim s.toList)

/-- A truth value with white space around it. -/
def trimmedBool? (s : String) : Option Bool :=
  if trim s.toList = ['t', 'r', 'u', 'e'] then some true
  else if trim s.toList = ['f', 'a', 'l', 's', 'e'] then some false
  else none

/-- A salt policy with white space around it. -/
def trimmedSaltPolicy? (s : String) : Option SaltPolicy :=
  SaltPolicy.ofLabel? (String.ofList (trim s.toList))

namespace Config

/-- The variables that settings have. -/
def variableNames : List String :=
  ["NETVEIL_BIND", "NETVEIL_MAX_PAYLOAD_BYTES", "NETVEIL_RATE_LIMIT_REQUESTS",
    "NETVEIL_RATE_LIMIT_WINDOW_SECS", "NETVEIL_REQUEST_TIMEOUT_SECS", "NETVEIL_MAPPING_TTL_SECS",
    "NETVEIL_CLEANUP_INTERVAL_SECS", "NETVEIL_REDIS_URL", "NETVEIL_REDIS_NAMESPACE",
    "NETVEIL_DETERMINISTIC_SECRET", "NETVEIL_DETERMINISTIC_ENABLED", "NETVEIL_SALT_POLICY",
    "NETVEIL_LOG_LEVEL", "NETVEIL_LOG_DIR"]

/-- The listener settings under an environment. -/
def overrideServer (env : Environment) (s : ServerSettings) : ServerSettings where
  bind := env.verbatim "NETVEIL_BIND" s.bind

/-- The limits under an environment. -/
def overrideLimits (env : Environment) (s : LimitSettings) : LimitSettings where
  maxPayloadBytes :=
    env.setting "NETVEIL_MAX_PAYLOAD_BYTES" (trimmedNumber? maxWord64) s.maxPayloadBytes
  rateLimitRequests :=
    env.setting "NETVEIL_RATE_LIMIT_REQUESTS" (trimmedNumber? maxWord32) s.rateLimitRequests
  rateLimitWindowSecs :=
    env.setting "NETVEIL_RATE_LIMIT_WINDOW_SECS" (trimmedNumber? maxWord64) s.rateLimitWindowSecs
  requestTimeoutSecs :=
    env.setting "NETVEIL_REQUEST_TIMEOUT_SECS" (trimmedNumber? maxWord64) s.requestTimeoutSecs

/-- The record settings under an environment. -/
def overrideMapping (env : Environment) (s : MappingSettings) : MappingSettings where
  backend := if (env "NETVEIL_REDIS_URL").isSome then .redis else s.backend
  ttlSecs := env.setting "NETVEIL_MAPPING_TTL_SECS" (trimmedNumber? maxWord64) s.ttlSecs
  cleanupIntervalSecs :=
    env.setting "NETVEIL_CLEANUP_INTERVAL_SECS" (trimmedNumber? maxWord64) s.cleanupIntervalSecs
  redisUrl := (env "NETVEIL_REDIS_URL").or s.redisUrl
  redisNamespace := env.verbatim "NETVEIL_REDIS_NAMESPACE" s.redisNamespace

/-- The key settings under an environment. -/
def overrideDeterministic (env : Environment) (s : DeterministicSettings) :
    DeterministicSettings where
  enabled := env.setting "NETVEIL_DETERMINISTIC_ENABLED" trimmedBool? s.enabled
  secret := ((env "NETVEIL_DETERMINISTIC_SECRET").map fun text => ⟨text.toList⟩).or s.secret
  salt := env.setting "NETVEIL_SALT_POLICY" trimmedSaltPolicy? s.salt

/-- The log settings under an environment. -/
def overrideLogging (env : Environment) (s : LogSettings) : LogSettings where
  level := env.verbatim "NETVEIL_LOG_LEVEL" s.level
  directory := (env "NETVEIL_LOG_DIR").or s.directory

/-- The configuration under an environment. -/
def override (env : Environment) (c : Config) : Config where
  server := overrideServer env c.server
  limits := overrideLimits env c.limits
  mapping := overrideMapping env c.mapping
  deterministic := overrideDeterministic env c.deterministic
  logging := overrideLogging env c.logging

end Config

end NetRedact
