/-
# What can go wrong

Every failure of the service is one of these causes, and `Error.message` gives its
words. A failure of the storage layer and one of the configuration keep their own
cause inside.

Key definitions: `WireError`, `StorageError`, `ConfigError`, `Error`, `Error.message`.
-/
import DeviceRelay.Json.Fault
import DeviceRelay.Principal

namespace DeviceRelay

/-- A message or frame that cannot be encoded or decoded. -/
inductive WireError where
  /-- A queued entry is no message. -/
  | unpacking
  /-- A frame is no JSON text of the right form. -/
  | frame (report : Json.Report)
  /-- A frame has the right form but a value that is not allowed. -/
  | invalidData (reason : String)

def WireError.message : WireError → String
  | .unpacking => "deserialization failed"
  | .frame report => "invalid frame: " ++ report.message
  | .invalidData reason => "invalid data: " ++ reason

/-- A failure of the storage layer. -/
inductive StorageError where
  | database (reason : String)
  | encoding (cause : WireError)
  | migration (reason : String)
  | invalidPath (path : String)

def StorageError.message : StorageError → String
  | .database reason => "database error: " ++ reason
  | .encoding cause => "encoding error: " ++ cause.message
  | .migration reason => "migration error: " ++ reason
  | .invalidPath path => "invalid database path: " ++ path

/-- A configuration that cannot be used. -/
inductive ConfigError where
  /-- The file is missing or is no text. -/
  | unreadable
  /-- The text is no configuration. -/
  | unparsable
  /-- The values contradict each other. -/
  | invalid (reason : String)
  deriving DecidableEq, Repr

def ConfigError.message : ConfigError → String
  | .unreadable => "failed to read config file"
  | .unparsable => "failed to parse config file"
  | .invalid reason => "invalid configuration: " ++ reason

/-- A failure of a service operation. -/
inductive Error where
  | notFound (what : String)
  | timeout
  | cancelled
  | alreadyPaired (device : PrincipalId)
  | invalidPairingTarget (reason : String)
  | malformedMessage (reason : String)
  | unauthorized
  | forbidden (reason : String)
  | crossNetwork
  | rateLimited (reason : String)
  | storage (cause : StorageError)
  | config (cause : ConfigError)

namespace Error

/-- The words for an error. -/
def message : Error → String
  | .notFound what => "not found: " ++ what
  | .timeout => "operation timed out"
  | .cancelled => "operation cancelled"
  | .alreadyPaired device => s!"device {device} is already paired"
  | .invalidPairingTarget reason => "invalid pairing target: " ++ reason
  | .malformedMessage reason => "malformed message: " ++ reason
  | .unauthorized => "unauthorized"
  | .forbidden reason => "forbidden: " ++ reason
  | .crossNetwork => "cross-network requests are not allowed"
  | .rateLimited reason => "rate limit exceeded: " ++ reason
  | .storage cause => "storage error: " ++ cause.message
  | .config cause => "configuration error: " ++ cause.message

/-- A frame that cannot be read is a malformed message. -/
def ofWire (e : WireError) : Error := .malformedMessage e.message

end Error
end DeviceRelay
