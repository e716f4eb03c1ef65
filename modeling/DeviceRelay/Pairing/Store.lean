/-
# A store of pairings that may be slow or fail

Recording a pairing takes some time, and only at its end it is seen whether the
store records it, refuses it or breaks down. Whatever is not recorded leaves the
pairings as they were. A store that fails fails every call, one that breaks down
only what it records. Each call is one step.

Key definitions: `PairingStore`, `StoreFault`, `PairingStore.read`,
`PairingStore.remove`, `PairingStore.record`, `Recording`.
-/
import DeviceRelay.Error
import DeviceRelay.Pairing.Edges

namespace DeviceRelay

/-- How a store fails. -/
inductive StoreFault where
  /-- It breaks down when it records a pairing. -/
  | breakdown
  | error (cause : StorageError)

/-- Pairings, the time that recording one takes, and how the store fails at present. -/
structure PairingStore where
  edges : Edges := {}
  delay : Nat := 0
  fault : Option StoreFault := none

/-- How the recording of a pairing ends. -/
inductive Recording where
  | recorded
  | refused (e : Error)
  /-- It ended without an answer. -/
  | brokenOff

namespace PairingStore

/-- Reads the pairings. -/
def read {α : Type} (s : PairingStore) (f : Edges → α) : Except Error α :=
  match s.fault with
  | some (.error cause) => .error (.storage cause)
  | _ => .ok (f s.edges)

/-- Removes the pairing of a device. Tells whether there was one. -/
def remove (s : PairingStore) (device : PrincipalId) : PairingStore × Except Error Bool :=
  match s.fault with
  | some (.error cause) => (s, .error (.storage cause))
  | _ =>
    let (edges, found) := s.edges.remove device
    ({ s with edges }, .ok found)

/-- Records that a user owns a device. -/
def record (s : PairingStore) (user device : PrincipalId) : PairingStore × Recording :=
  match s.fault with
  | some .breakdown => (s, .brokenOff)
  | some (.error cause) => (s, .refused (.storage cause))
  | none =>
    match s.edges.create? user device with
    | some edges => ({ s with edges }, .recorded)
    | none => (s, .refused (.alreadyPaired device))

end PairingStore
end DeviceRelay
