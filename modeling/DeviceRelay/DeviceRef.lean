/-
# How a device is named in a pairing request

A device is named by its number or by its username. In JSON the two are told apart
by their form: a whole number in range is a number, a text is a username.

Key definitions: `DeviceRef`, `DeviceRef.text`, `DeviceRef.decoder`, `DeviceRef.find?`.
-/
import DeviceRelay.Directory
import DeviceRelay.Frame

namespace DeviceRelay

/-- The device that a pairing request is for. -/
inductive DeviceRef where
  | number (id : PrincipalId)
  | username (name : String)
  deriving DecidableEq, Repr

namespace DeviceRef

/-- The device in the words of an error. -/
def text : DeviceRef → String
  | .number id => s!"device {id}"
  | .username name => s!"device {Text.quoted name}"

def description : DeviceRef → String
  | .number id => s!"Id({id.description})"
  | .username name => s!"Username({Text.quoted name})"

/-- The device that a value names. -/
def ofValue (value : Json.Value) : Except Json.Cause DeviceRef :=
  match PrincipalId.decoder.ofValue value, Json.Decoder.text.ofValue value with
  | .ok id, _ => .ok (.number id)
  | .error _, .ok name => .ok (.username name)
  | .error _, .error _ =>
    .error (.refused "data did not match any variant of untagged enum DeviceRef")

/-- The decoder of device names. -/
def decoder : Json.Decoder DeviceRef := Json.Decoder.raw.refine ofValue

/-- The principal with that name. -/
def find? (device : DeviceRef) (directory : Directory) : Option Principal :=
  match device with
  | .number id => directory.lookup? id
  | .username name => directory.findByUsername? name

end DeviceRef
end DeviceRelay
