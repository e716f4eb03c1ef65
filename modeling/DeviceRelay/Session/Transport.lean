/-
# What can happen to a connection

A connection of a session fails in four ways. That the peer left is the normal end
of a session, and a frame that is no text leaves the connection usable.

Key definitions: `TransportError`, `TransportError.message`.
-/

namespace DeviceRelay

/-- A failure of a connection. -/
inductive TransportError where
  | disconnected
  | sendFailed (reason : String)
  | receiveFailed (reason : String)
  | malformedFrame (reason : String)
  deriving DecidableEq, Repr

namespace TransportError

/-- The words for a failure. -/
def message : TransportError → String
  | .disconnected => "peer disconnected"
  | .sendFailed reason => "send failed: " ++ reason
  | .receiveFailed reason => "receive failed: " ++ reason
  | .malformedFrame reason => "malformed frame: " ++ reason

end TransportError
end DeviceRelay
