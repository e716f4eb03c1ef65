/-
# Principals: users and devices

A principal is known by a number of 64 bits and by a username, both unique. It is
either a user, who owns devices, or a device, which a user may own.

Key definitions: `PrincipalId`, `Principal`, `Principal.fields`.
-/
import DeviceRelay.Json.Printer
import DeviceRelay.Text.Quoted

namespace DeviceRelay

/-- The number of a principal. -/
structure PrincipalId where
  value : UInt64
  deriving DecidableEq, Repr, Inhabited

namespace PrincipalId

/-- The principal with the given number, taken modulo `2 ^ 64`. -/
def ofNat (n : Nat) : PrincipalId := ⟨UInt64.ofNat n⟩

def toNat (id : PrincipalId) : Nat := id.value.toNat

/-- Principals are ordered by number. -/
def compare (a b : PrincipalId) : Ordering := Ord.compare a.toNat b.toNat

def text (id : PrincipalId) : String := toString id.toNat

def description (id : PrincipalId) : String := s!"PrincipalId({id.text})"

def json (id : PrincipalId) : Json.Value := .ofNat id.toNat

instance : ToString PrincipalId := ⟨text⟩

end PrincipalId

/-- A user or a device. -/
structure Principal where
  id : PrincipalId
  username : String
  isDevice : Bool
  deriving DecidableEq, Repr, Inhabited

namespace Principal

/-- The members of a principal in the order written. -/
def fields (p : Principal) : List (String × Json.Value) :=
  [("id", p.id.json), ("username", .str p.username), ("is_device", .bool p.isDevice)]

def json (p : Principal) : Json.Value := .ofMembers p.fields

/-- A principal as a record with all its fields. -/
def description (p : Principal) : String :=
  s!"Principal \x7b id: {p.id.description}, username: {Text.quoted p.username}, " ++
    s!"is_device: {p.isDevice} \x7d"

end Principal
end DeviceRelay
