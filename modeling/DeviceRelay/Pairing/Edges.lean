/-
# Who owns which device

Ownership is a list of edges from a user to a device, in the order of pairing. A
device has at most one owner. Two principals are in one network if they are the
same, if one owns the other, or if one user owns both.

Key definitions: `Edges`, `Edges.create?`, `Edges.remove`, `Edges.owner?`,
`Edges.devices`, `Edges.sameNetwork`.
-/
import DeviceRelay.Principal

namespace DeviceRelay

/-- That a user owns a device. -/
structure Edge where
  user : PrincipalId
  device : PrincipalId
  deriving DecidableEq, Repr

/-- The pairings, in the order in which they were made. -/
structure Edges where
  toList : List Edge := []
  deriving DecidableEq, Repr, Inhabited

namespace Edges

/-- The owner of a device. -/
def owner? (edges : Edges) (device : PrincipalId) : Option PrincipalId :=
  (edges.toList.find? (·.device = device)).map (·.user)

/-- Records that `user` owns `device`, unless the device has an owner. -/
def create? (edges : Edges) (user device : PrincipalId) : Option Edges :=
  if (edges.owner? device).isSome then none else some ⟨edges.toList ++ [⟨user, device⟩]⟩

/-- The pairings without that of `device`, and whether there was one. -/
def remove (edges : Edges) (device : PrincipalId) : Edges × Bool :=
  (⟨edges.toList.filter (·.device ≠ device)⟩, (edges.owner? device).isSome)

/-- The devices of a user, in the order of pairing. -/
def devices (edges : Edges) (user : PrincipalId) : List PrincipalId :=
  (edges.toList.filter (·.user = user)).map (·.device)

/-- Whether two principals with the given owners are in one network. -/
def connected (a b : PrincipalId) (ownerA ownerB : Option PrincipalId) : Bool :=
  ownerA == some b || ownerB == some a || (ownerA.isSome && ownerA == ownerB)

/-- Whether two principals are in one network. -/
def sameNetwork (edges : Edges) (a b : PrincipalId) : Bool :=
  a == b || connected a b (edges.owner? a) (edges.owner? b)

end Edges
end DeviceRelay
