/-
# Configuration

A configuration has five sections and a list of principals. Each section may be
left out, and so may each of its settings, which then has its default. A section is
a table, or a list of its settings in order. What is not known is passed over. The
values of a readable configuration are then checked against each other, and the
first rule that is broken is reported.

Key definitions: `Config`, `Config.ofToml?`, `Config.check`, `Config.parse`.
-/
import DeviceRelay.Error
import DeviceRelay.Toml.Reader
import DeviceRelay.Text.Utf8

namespace DeviceRelay

/-- Where the server listens. -/
structure ServerConfig where
  bindAddress : String := "0.0.0.0:8000"
  metricsEnabled : Bool := true
  deriving DecidableEq, Repr, Inhabited

/-- Where pairings are kept. -/
structure StorageConfig where
  database : String := "pairlink.db"
  deriving DecidableEq, Repr, Inhabited

/-- How long pairing requests and their parties wait, in seconds. -/
structure PairingConfig where
  requestTtl : Nat := 20
  responseWait : Nat := 30
  pollTimeout : Nat := 30
  deriving DecidableEq, Repr, Inhabited

/-- The bounds of the message queues. -/
structure RelayConfig where
  maxQueueSize : Nat := 2000
  /-- How many of the oldest messages are dropped when a queue overflows. -/
  overflowBuffer : Nat := 100
  /-- Seconds. -/
  consumeTimeout : Nat := 30
  deriving DecidableEq, Repr, Inhabited

/-- How much may be published. -/
structure LimitsConfig where
  messagesPerMinute : Nat := 600
  globalRequestsPerSecond : Nat := 1000
  /-- Seconds. -/
  cleanupInterval : Nat := 60
  deriving DecidableEq, Repr, Inhabited

/-- A principal and its token. -/
structure PrincipalEntry where
  principal : Principal
  token : String
  deriving DecidableEq, Repr, Inhabited

/-- The whole configuration. -/
structure Config where
  server : ServerConfig := {}
  storage : StorageConfig := {}
  pairing : PairingConfig := {}
  relay : RelayConfig := {}
  limits : LimitsConfig := {}
  principals : List PrincipalEntry := []
  deriving DecidableEq, Repr, Inhabited

namespace Config

/-! ### From a TOML document -/

open Toml (Value)

/-- The `i`-th setting of a section: the entry of its name in a table, or the `i`-th
item of a list. A section of another form is refused. -/
def setting? (section_ : Value) (i : Nat) (name : String) : Option (Option Value) :=
  match section_ with
  | .table entries => some (entries.lookup name)
  | .list items => some items[i]?
  -- a date is a record of its own, with none of the settings
  | .moment => some none
  | _ => none

/-- A setting read by `read`, or its default if it is left out. -/
def settingOr {α : Type} (section_ : Value) (i : Nat) (name : String)
    (read : Value → Option α) (default : α) : Option α := do
  match ← setting? section_ i name with
  | some v => read v
  | none => return default

/-- A setting that may not be left out. -/
def settingOf {α : Type} (section_ : Value) (i : Nat) (name : String)
    (read : Value → Option α) : Option α := do
  match ← setting? section_ i name with
  | some v => read v
  | none => none

def text? : Value → Option String
  | .text s => some s
  | _ => none

def bool? : Value → Option Bool
  | .bool b => some b
  | _ => none

/-- A natural number below `bound`. -/
def nat? (bound : Nat) : Value → Option Nat
  | .int n => if 0 ≤ n ∧ n < bound then some n.toNat else none
  | _ => none

def word? : Value → Option Nat := nat? (twoTo 64)

def shortWord? : Value → Option Nat := nat? (twoTo 32)

def server? (v : Value) : Option ServerConfig := do
  let base : ServerConfig := {}
  let bindAddress ← settingOr v 0 "bind_address" text? base.bindAddress
  let metricsEnabled ← settingOr v 1 "metrics_enabled" bool? base.metricsEnabled
  return { bindAddress, metricsEnabled }

def storage? (v : Value) : Option StorageConfig := do
  let base : StorageConfig := {}
  let database ← settingOr v 0 "database" text? base.database
  return { database }

def pairing? (v : Value) : Option PairingConfig := do
  let base : PairingConfig := {}
  let requestTtl ← settingOr v 0 "request_ttl_secs" word? base.requestTtl
  let responseWait ← settingOr v 1 "response_wait_secs" word? base.responseWait
  let pollTimeout ← settingOr v 2 "poll_timeout_secs" word? base.pollTimeout
  return { requestTtl, responseWait, pollTimeout }

def relay? (v : Value) : Option RelayConfig := do
  let base : RelayConfig := {}
  let maxQueueSize ← settingOr v 0 "max_queue_size" word? base.maxQueueSize
  let overflowBuffer ← settingOr v 1 "overflow_buffer" word? base.overflowBuffer
  let consumeTimeout ← settingOr v 2 "consume_timeout_secs" word? base.consumeTimeout
  return { maxQueueSize, overflowBuffer, consumeTimeout }

def limits? (v : Value) : Option LimitsConfig := do
  let base : LimitsConfig := {}
  let messagesPerMinute ← settingOr v 0 "messages_per_minute" shortWord? base.messagesPerMinute
  let globalRequestsPerSecond ←
    settingOr v 1 "global_requests_per_second" shortWord? base.globalRequestsPerSecond
  let cleanupInterval ← settingOr v 2 "cleanup_interval_secs" word? base.cleanupInterval
  return { messagesPerMinute, globalRequestsPerSecond, cleanupInterval }

def principal? (v : Value) : Option PrincipalEntry := do
  let id ← settingOf v 0 "id" word?
  let username ← settingOf v 1 "username" text?
  let isDevice ← settingOr v 2 "is_device" bool? false
  let token ← settingOf v 3 "token" text?
  return { principal := ⟨.ofNat id, username, isDevice⟩, token }

def principals? : Value → Option (List PrincipalEntry)
  | .list items => items.mapM principal?
  | _ => none

/-- The configuration of a document. -/
def ofToml? (v : Value) : Option Config := do
  let server ← settingOr v 0 "server" server? {}
  let storage ← settingOr v 1 "storage" storage? {}
  let pairing ← settingOr v 2 "pairing" pairing? {}
  let relay ← settingOr v 3 "relay" relay? {}
  let limits ← settingOr v 4 "limits" limits? {}
  let principals ← settingOr v 5 "principals" principals? []
  return { server, storage, pairing, relay, limits, principals }

/-! ### Checks -/

/-- Why the values of a configuration cannot be used together, if so. -/
def refusal? (config : Config) : Option String :=
  if config.relay.maxQueueSize = 0 then some "relay.max_queue_size must be > 0"
  else if config.relay.overflowBuffer = 0 ∨
      config.relay.maxQueueSize < config.relay.overflowBuffer then
    some "relay.overflow_buffer must be in 1..=max_queue_size"
  else if config.limits.messagesPerMinute = 0 ∨ config.limits.globalRequestsPerSecond = 0 then
    some "rate limits must be > 0"
  else if config.limits.cleanupInterval = 0 then
    some "limits.cleanup_interval_secs must be > 0"
  else none

/-- Refuses a configuration whose values cannot be used together. -/
def check (config : Config) : Except ConfigError Unit :=
  match config.refusal? with
  | some reason => .error (.invalid reason)
  | none => .ok ()

/-- The configuration in the bytes of a file. -/
def parse (bytes : List UInt8) : Except ConfigError Config :=
  match Utf8.decode bytes with
  | .error _ => .error .unreadable
  | .ok text =>
    match (Toml.parse? text).bind ofToml? with
    | none => .error .unparsable
    | some config =>
      match config.check with
      | .error e => .error e
      | .ok () => .ok config

end Config
end DeviceRelay
