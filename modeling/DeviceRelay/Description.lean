/-
# A server as text

Key definitions: `Config.description`, `Service.description`, `Server.description`.
-/
import DeviceRelay.Server

namespace DeviceRelay

/-- A record with its type, its fields, and whether it has more than those. -/
def recordText (type : String) (fields : List (String × String)) (more : Bool) : String :=
  let shown := fields.map fun (name, value) => s!"{name}: {value}"
  let parts := String.intercalate ", " (shown ++ if more then [".."] else [])
  s!"{type} \x7b {parts} \x7d"

def PrincipalEntry.description (e : PrincipalEntry) : String :=
  recordText "PrincipalEntry" [("id", e.principal.id.description),
    ("username", Text.quoted e.principal.username), ("is_device", toString e.principal.isDevice),
    ("token", Text.quoted e.token)] false

/-- A configuration with all its settings. -/
def Config.description (c : Config) : String :=
  let server := recordText "ServerConfig" [("bind_address", Text.quoted c.server.bindAddress),
    ("metrics_enabled", toString c.server.metricsEnabled)] false
  let storage := recordText "StorageConfig" [("database", Text.quoted c.storage.database)] false
  let pairing := recordText "PairingConfig" [("request_ttl_secs", toString c.pairing.requestTtl),
    ("response_wait_secs", toString c.pairing.responseWait),
    ("poll_timeout_secs", toString c.pairing.pollTimeout)] false
  let relay := recordText "RelayConfig" [("max_queue_size", toString c.relay.maxQueueSize),
    ("overflow_buffer", toString c.relay.overflowBuffer),
    ("consume_timeout_secs", toString c.relay.consumeTimeout)] false
  let limits := recordText "LimitsConfig"
    [("messages_per_minute", toString c.limits.messagesPerMinute),
      ("global_requests_per_second", toString c.limits.globalRequestsPerSecond),
      ("cleanup_interval_secs", toString c.limits.cleanupInterval)] false
  let principals := String.intercalate ", " (c.principals.map (·.description))
  recordText "Config" [("server", server), ("storage", storage), ("pairing", pairing),
    ("relay", relay), ("limits", limits), ("principals", s!"[{principals}]")] false

/-- The parts of a service that are shown. -/
def Service.description (s : Service) : String :=
  recordText "LinkService" [("pairing", s.pairing.description), ("relay", s.relay.description),
    ("limits", RateLimits.description)] true

/-- The parts of a server that are shown. -/
def Server.description (s : Server) : String :=
  recordText "PairLink" [("config", s.service.config.description),
    ("service", s.service.description), ("metrics", s.service.metrics.description)] true

end DeviceRelay
