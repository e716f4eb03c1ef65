/-
# The service and what it is asked

The service joins the directory, the store of pairings, the pairing requests, the
message queues, the rate limits and the counters. A call asks it for one thing and
is answered or fails. Between two uses of the store, and while it waits, a call is
in a phase that says all about how it goes on.

Key definitions: `Party`, `Service`, `Service.ofConfig`, `Call`, `Answer`, `Ending`,
`Phase`.
-/
import DeviceRelay.DeviceRef
import DeviceRelay.Metrics
import DeviceRelay.Pairing.Coordinator
import DeviceRelay.RateLimits
import DeviceRelay.Relay

namespace DeviceRelay

/-- Who waits at a registry or a queue. -/
inductive Party where
  | call (label : String)
  | session (name : String)
  deriving DecidableEq, Repr

/-- The parts of a service. -/
structure Service where
  config : Config
  directory : Directory
  clock : Clock := {}
  store : PairingStore := {}
  pairing : Coordinator Party
  relay : Relay Party
  limits : RateLimits
  metrics : Metrics := {}

/-- A service as configured, with nothing stored. -/
def Service.ofConfig (config : Config) (directory : Directory) (epoch : Int) :
    Except ConfigError Service :=
  match RateLimits.ofConfig config.limits with
  | .error e => .error e
  | .ok limits =>
    .ok { config, directory, limits
          clock := { epoch }
          pairing := { ttl := config.pairing.requestTtl * 1000 }
          relay := .ofConfig config.relay }

/-- What a service is asked for. -/
inductive Call where
  /-- A user asks to own a device. Its request, if one is sent, has the identifier. -/
  | pair (id : RequestId) (requester : Principal) (device : DeviceRef)
  /-- A device asks for its requests. -/
  | poll (device : Principal) (timeout : Option Nat)
  /-- A device accepts a request or rejects it. -/
  | respond (device : Principal) (id : RequestId) (accept : Bool)
  | owner (device : Principal)
  | devices (user : Principal)
  | unpair (caller : Principal) (device : PrincipalId)
  | publish (sender : Principal) (recipient : PrincipalId) (kind : MessageKind)
      (correlationId : String) (data : Json.Value)
  | consume (recipient : PrincipalId) (timeout : Nat)

/-- What a service answers. -/
inductive Answer where
  | outcome (o : PairingOutcome)
  | requests (rs : List Sighting)
  | request (r : Sighting)
  | owner (p : Option Principal)
  | devices (ps : List Principal)
  /-- It was done, and there is nothing to tell. -/
  | done
  | message (m : Option Message)

/-- How a call ends. -/
inductive Ending where
  | answered (a : Answer)
  | failed (e : Error)
  /-- It ended without an answer. -/
  | brokenOff

def Ending.ofResult : Except Error Answer → Ending
  | .ok a => .answered a
  | .error e => .failed e

/-- A message that is to be queued. -/
structure Letter where
  sender : PrincipalId
  recipient : PrincipalId
  kind : MessageKind
  correlationId : String
  data : Json.Value
  deriving DecidableEq, Repr

/-- The message of a letter, written at the given second. -/
def Letter.message (letter : Letter) (createdAt : Int) : Message :=
  ⟨letter.kind, letter.correlationId, letter.sender, letter.recipient, createdAt, letter.data⟩

/-- How far a call got, and what it does next. -/
inductive Phase where
  | begins (call : Call)
  /-- The device has no owner: a request is sent. -/
  | sends (id : RequestId) (requester target : Principal)
  /-- The request was sent: its requester waits until the given moment. -/
  | awaits (id : RequestId) (device : PrincipalId) (due : Nat)
  /-- A device waits for its requests. -/
  | lists
  /-- The request was claimed: its pairing is being recorded. -/
  | records (id : RequestId)
  /-- The caller may: the pairing of the device is removed. -/
  | removes (device : PrincipalId)
  /-- The sender's owner was read: that of the recipient is read. -/
  | compares (letter : Letter) (senderOwner : Option PrincipalId)
  /-- Both are in one network: the message is queued. -/
  | queues (letter : Letter)
  | consumes

/-- When a phase is over at the latest. -/
def Phase.due? : Phase → Option Nat
  | .awaits _ _ due => some due
  | _ => none

/-- What goes on by itself, once a call began it. -/
inductive Background where
  | timer (id : RequestId)
  | write (id : RequestId)
  deriving DecidableEq, Repr

/-- How a call goes on. -/
inductive Progress where
  | goesOn (phase : Phase)
  | ends (ending : Ending)

/-- A step of a call: the service after it, how the call goes on, and what it began. -/
structure Move where
  service : Service
  progress : Progress
  started : Option Background := none

end DeviceRelay
