/-
# The states of a pairing request

A request is pending until it is accepted or rejected, once and for all.

Key definitions: `PairingState`, `PairingState.settle`, `PairingOutcome`.
-/
import DeviceRelay.RequestId

namespace DeviceRelay

/-- Where a pairing request stands. -/
inductive PairingState where
  | pending
  | accepted
  | rejected
  deriving DecidableEq, Repr, Inhabited

namespace PairingState

def name : PairingState → String
  | .pending => "pending"
  | .accepted => "accepted"
  | .rejected => "rejected"

def named : List (String × PairingState) :=
  [("pending", .pending), ("accepted", .accepted), ("rejected", .rejected)]

/-- A pending request takes the new state, a settled one keeps its own. -/
def settle (new : PairingState) : PairingState → PairingState
  | .pending => new
  | settled => settled

end PairingState

/-- What the requester learns of its request. -/
structure PairingOutcome where
  requestId : RequestId
  device : PrincipalId
  state : PairingState
  deriving DecidableEq, Repr

namespace PairingOutcome

/-- The members of an outcome in the order written. -/
def fields (o : PairingOutcome) : List (String × Json.Value) :=
  [("request_id", .str o.requestId.simple), ("device", o.device.json), ("state", .str o.state.name)]

def json (o : PairingOutcome) : Json.Value := .ofMembers o.fields

end PairingOutcome
end DeviceRelay
