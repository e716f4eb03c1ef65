/-
# The health report

Key definitions: `Health`, `Health.text`, `version`.
-/
import DeviceRelay.Json.Printer

namespace DeviceRelay

/-- The version that the service reports. -/
def version : String := "0.1.0"

/-- How the service is doing. -/
structure Health where
  status : String
  version : String
  sessions : Nat
  pendingRequests : Nat
  uptimeSeconds : Nat
  deriving DecidableEq, Repr

/-- A health report as JSON text. -/
def Health.text (h : Health) : String :=
  Json.text (.obj [("status", .str h.status), ("version", .str h.version),
    ("sessions", .ofNat h.sessions), ("pending_pair_requests", .ofNat h.pendingRequests),
    ("uptime_seconds", .ofNat h.uptimeSeconds)])

end DeviceRelay
