import NetRedact.Config.Basic

/-!
# The summary of a configuration

One line for each setting.  The secret does not show, only whether there is one, and the settings of
a Redis server are left out while records are kept in memory.
-/

namespace NetRedact.Config

/-- The lines of the summary. -/
def summaryLines (c : Config) : List String :=
  let line (setting value : String) : String := setting ++ " = " ++ value
  let nameSpace := match c.mapping.backend with
    | .memory => []
    | .redis => [line "mapping.redis_namespace" c.mapping.redisNamespace]
  [line "server.bind" c.server.bind,
    line "limits.max_payload_bytes" (toString c.limits.maxPayloadBytes),
    line "limits.rate_limit" (toString c.limits.rateLimitRequests ++ " per " ++
      toString c.limits.rateLimitWindowSecs ++ "s"),
    line "limits.request_timeout_secs" (toString c.limits.requestTimeoutSecs),
    line "mapping.backend" c.mapping.backend.label,
    line "mapping.ttl_secs" (toString c.mapping.ttlSecs),
    line "mapping.cleanup_interval_secs" (toString c.mapping.cleanupIntervalSecs)] ++
  nameSpace ++
  [line "deterministic.enabled" (toString c.deterministic.enabled),
    line "deterministic.secret" (if c.deterministic.secret.isSome then "<set>" else "<unset>"),
    line "deterministic.salt" c.deterministic.salt.label,
    line "logging.level" c.logging.level]

/-- The summary, without an end of line at its end. -/
def summary (c : Config) : String :=
  "\n".intercalate c.summaryLines

end NetRedact.Config
