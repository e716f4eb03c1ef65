/-
# Operational counters

All counters only grow, except the number of sessions that run. They are numbers
without a bound here; a server keeps each in 64 bits, which start over when they
overflow.

Key definitions: `Metrics`, `Metrics.description`, `Metrics.report`.
-/
import DeviceRelay.Http.Health

namespace DeviceRelay

/-- What was counted since the start. -/
structure Metrics where
  /-- Pairing requests that were sent. -/
  pairRequests : Nat := 0
  /-- Pairing requests that ended accepted. -/
  pairings : Nat := 0
  /-- Messages that were queued. -/
  published : Nat := 0
  /-- Messages that were handed to a session. -/
  delivered : Nat := 0
  /-- Sessions that began. -/
  sessions : Nat := 0
  /-- Sessions that run. -/
  activeSessions : Nat := 0
  /-- Messages that a rate limit refused. -/
  rateLimitHits : Nat := 0
  /-- Sessions that ended on a failure of their connection. -/
  errors : Nat := 0
  deriving DecidableEq, Repr, Inhabited

namespace Metrics

/-- The counters as a record with all its fields. -/
def description (m : Metrics) : String :=
  s!"LinkMetrics \x7b pair_requests_total: {m.pairRequests}, pairings_total: {m.pairings}, " ++
    s!"messages_published_total: {m.published}, messages_delivered_total: {m.delivered}, " ++
    s!"sessions_total: {m.sessions}, active_sessions: {m.activeSessions}, " ++
    s!"rate_limit_hits: {m.rateLimitHits}, errors_total: {m.errors} \x7d"

/-- One metric in the report: its name, what it means, its kind, its labels and its value. -/
def entry (name meaning kind labels : String) (value : Nat) : String :=
  s!"# HELP {name} {meaning}\n# TYPE {name} {kind}\n{name}{labels} {value}\n"

/-- The counters in the Prometheus text format, with the number of live pairing
requests and of senders that the rate limits know. -/
def report (m : Metrics) (liveRequests senders : Nat) : String :=
  let gauge := fun name meaning => entry name meaning "gauge" ""
  let counter := fun name meaning => entry name meaning "counter" ""
  String.intercalate "\n" [
    gauge "pairlink_sessions_active" "Number of running relay sessions" m.activeSessions,
    gauge "pairlink_pair_requests_pending" "Pairing requests awaiting a response" liveRequests,
    gauge "pairlink_rate_limit_senders" "Senders tracked by the rate limiter" senders,
    entry "pairlink_info" "Server information" "gauge" s!"\x7bversion=\"{version}\"\x7d" 1,
    counter "pairlink_pair_requests_total" "Pairing requests sent to devices" m.pairRequests,
    counter "pairlink_pairings_total" "Pairing requests accepted" m.pairings,
    counter "pairlink_messages_published_total" "Relay messages queued" m.published,
    counter "pairlink_messages_delivered_total" "Relay messages sent to live sessions" m.delivered,
    counter "pairlink_sessions_total" "Relay sessions started" m.sessions,
    counter "pairlink_rate_limit_hits_total" "Total rate limit rejections" m.rateLimitHits,
    counter "pairlink_errors_total" "Sessions ended by a transport error" m.errors]

end Metrics
end DeviceRelay
