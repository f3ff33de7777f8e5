import NetRedact.Config.Basic
import NetRedact.Toml.Document

/-!
# Configurations in TOML

A configuration is a table of sections, and a section a table of settings.  Every section and every
setting may be left out and has its default then; what is unknown is passed over; a setting of the
wrong type or out of range spoils the whole.
-/

namespace NetRedact

open NetRedact.Toml

/-- The largest number of 64 bits. -/
def maxWord64 : Nat := 18446744073709551615

/-- The largest number of 32 bits. -/
def maxWord32 : Nat := 4294967295

/-- A member as `read` takes it, or its default if it is missing. -/
def memberOr {α : Type} (default : α) (read : Value → Option α) : Option Value → Option α
  | none => some default
  | some value => read value

/-- A text. -/
def readText? (v : Value) : Option String :=
  v.text?.map String.ofList

/-- The choice with the name that a value gives. -/
def readChoice? {α : Type} (ofLabel? : String → Option α) (v : Value) : Option α :=
  v.choice?.bind fun name => ofLabel? (String.ofList name)

/-- The listener settings in a value. -/
def ServerSettings.ofToml? (v : Value) : Option ServerSettings := do
  let d : ServerSettings := {}
  match ← v.fields? ["bind"] with
  | [bind] => some ⟨← memberOr d.bind readText? bind⟩
  | _ => none

/-- The limits in a value. -/
def LimitSettings.ofToml? (v : Value) : Option LimitSettings := do
  let d : LimitSettings := {}
  match ← v.fields? ["max_payload_bytes", "rate_limit_requests", "rate_limit_window_secs",
    "request_timeout_secs"] with
  | [payload, requests, window, timeout] =>
    some ⟨← memberOr d.maxPayloadBytes (·.natural? maxWord64) payload,
      ← memberOr d.rateLimitRequests (·.natural? maxWord32) requests,
      ← memberOr d.rateLimitWindowSecs (·.natural? maxWord64) window,
      ← memberOr d.requestTimeoutSecs (·.natural? maxWord64) timeout⟩
  | _ => none

/-- The record settings in a value. -/
def MappingSettings.ofToml? (v : Value) : Option MappingSettings := do
  let d : MappingSettings := {}
  match ← v.fields? ["backend", "ttl_secs", "cleanup_interval_secs", "redis_url",
    "redis_namespace"] with
  | [backend, ttl, interval, url, nameSpace] =>
    some ⟨← memberOr d.backend (readChoice? MappingBackend.ofLabel?) backend,
      ← memberOr d.ttlSecs (·.natural? maxWord64) ttl,
      ← memberOr d.cleanupIntervalSecs (·.natural? maxWord64) interval,
      ← memberOr d.redisUrl (fun v => (readText? v).map some) url,
      ← memberOr d.redisNamespace readText? nameSpace⟩
  | _ => none

/-- The key settings in a value. -/
def DeterministicSettings.ofToml? (v : Value) : Option DeterministicSettings := do
  let d : DeterministicSettings := {}
  match ← v.fields? ["enabled", "secret", "salt"] with
  | [enabled, secret, salt] =>
    some ⟨← memberOr d.enabled Value.boolean? enabled,
      ← memberOr d.secret (fun v => v.text?.map fun text => some ⟨text⟩) secret,
      ← memberOr d.salt (readChoice? SaltPolicy.ofLabel?) salt⟩
  | _ => none

/-- The log settings in a value. -/
def LogSettings.ofToml? (v : Value) : Option LogSettings := do
  let d : LogSettings := {}
  match ← v.fields? ["level", "directory"] with
  | [level, directory] =>
    some ⟨← memberOr d.level readText? level,
      ← memberOr d.directory (fun v => (readText? v).map some) directory⟩
  | _ => none

namespace Config

/-- The configuration in a value. -/
def ofToml? (v : Value) : Option Config := do
  let d : Config := {}
  match ← v.fields? ["server", "limits", "mapping", "deterministic", "logging"] with
  | [server, limits, mapping, deterministic, logging] =>
    some ⟨← memberOr d.server ServerSettings.ofToml? server,
      ← memberOr d.limits LimitSettings.ofToml? limits,
      ← memberOr d.mapping MappingSettings.ofToml? mapping,
      ← memberOr d.deterministic DeterministicSettings.ofToml? deterministic,
      ← memberOr d.logging LogSettings.ofToml? logging⟩
  | _ => none

/-- The configuration that a document describes. -/
def read? (document : List Char) : Option Config := do
  ofToml? (← Toml.read? document)

end Config

end NetRedact
