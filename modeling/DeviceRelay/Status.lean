/-
# Application status codes

Every answer, over HTTP or in a frame of a session, carries one of these codes.
The codes below 400 report success. What an internal failure was is not told.

Key definitions: `Status`, `Status.code`, `Status.http`, `Status.ofError`.
-/
import DeviceRelay.Error

namespace DeviceRelay

/-- The outcome of a request. -/
inductive Status where
  | success
  | updated
  | pairAccepted
  | pairRejected
  | malformed
  | unauthorized
  | forbidden
  | notFound
  | timeout
  | alreadyPaired
  | cancelled
  | invalidPairingTarget
  | crossNetwork
  | rateLimited
  | internal
  deriving DecidableEq, Repr

namespace Status

/-- The number of a status. -/
def code : Status → Nat
  | .success => 0
  | .updated => 1
  | .pairAccepted => 100
  | .pairRejected => 101
  | .malformed => 400
  | .unauthorized => 401
  | .forbidden => 403
  | .notFound => 404
  | .timeout => 408
  | .alreadyPaired => 409
  | .cancelled => 410
  | .invalidPairingTarget => 422
  | .crossNetwork => 423
  | .rateLimited => 429
  | .internal => 500

/-- The HTTP status an answer with this outcome has. -/
def http : Status → Nat
  | .success | .updated | .pairAccepted | .pairRejected => 200
  | .crossNetwork => 403
  | status => status.code

/-- Whether the status reports success. -/
def isOk (status : Status) : Bool := status.code < 400

/-- The status of an error. -/
def ofError : Error → Status
  | .notFound _ => .notFound
  | .timeout => .timeout
  | .cancelled => .cancelled
  | .alreadyPaired _ => .alreadyPaired
  | .invalidPairingTarget _ => .invalidPairingTarget
  | .malformedMessage _ => .malformed
  | .unauthorized => .unauthorized
  | .forbidden _ => .forbidden
  | .crossNetwork => .crossNetwork
  | .rateLimited _ => .rateLimited
  | .storage _ | .config _ => .internal

/-- What an error answer says: an internal failure is not described. -/
def messageFor (e : Error) : String :=
  match ofError e with
  | .internal => "internal error"
  | _ => e.message

end Status
end DeviceRelay
