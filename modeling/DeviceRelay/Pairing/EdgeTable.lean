/-
# Ownership as a table with numbered rows

Kept in a table, the pairings are rows with a number that only grows, and
principals stand as signed words of the same bits. The device column is unique: a
row for a device that has one is not inserted. The devices of a user are read in
the order of the row numbers.

Key definitions: `EdgeTable`, `EdgeTable.create?`, `EdgeTable.remove`,
`EdgeTable.owner?`, `EdgeTable.devices`, `EdgeTable.sameNetwork`, `EdgeTable.pathFault?`.
-/
import DeviceRelay.Error
import DeviceRelay.Pairing.Edges

namespace DeviceRelay

/-- One row: its number, the user and the device. -/
structure EdgeRow where
  number : Nat
  user : Int64
  device : Int64
  deriving DecidableEq, Repr

/-- The rows of the table, and the greatest row number that was ever given. -/
structure EdgeTable where
  rows : List EdgeRow := []
  lastNumber : Nat := 0
  deriving Repr, Inhabited

namespace EdgeTable

/-- A principal as a signed word. -/
def encode (id : PrincipalId) : Int64 := id.value.toInt64

/-- The principal of a signed word. -/
def decode (word : Int64) : PrincipalId := ⟨word.toUInt64⟩

/-- Inserts a row unless there is one for the device. -/
def create? (t : EdgeTable) (user device : PrincipalId) : Option EdgeTable :=
  if t.rows.any (·.device = encode device) then none
  else
    let number := t.lastNumber + 1
    some ⟨t.rows ++ [⟨number, encode user, encode device⟩], number⟩

/-- Deletes the rows of a device. Tells whether there was one. -/
def remove (t : EdgeTable) (device : PrincipalId) : EdgeTable × Bool :=
  ({ t with rows := t.rows.filter (·.device ≠ encode device) },
    t.rows.any (·.device = encode device))

/-- The user in the row of a device. -/
def owner? (t : EdgeTable) (device : PrincipalId) : Option PrincipalId :=
  (t.rows.find? (·.device = encode device)).map fun row => decode row.user

/-- The devices in the rows of a user, by row number. -/
def devices (t : EdgeTable) (user : PrincipalId) : List PrincipalId :=
  let rows := t.rows.filter (·.user = encode user)
  (rows.mergeSort fun a b => a.number ≤ b.number).map fun row => decode row.device

/-- Whether two principals are in one network. -/
def sameNetwork (t : EdgeTable) (a b : PrincipalId) : Bool :=
  a == b || Edges.connected a b (t.owner? a) (t.owner? b)

/-- A table has a path that is not empty. -/
def pathFault? (path : String) : Option StorageError :=
  if path.isEmpty then some (.invalidPath path) else none

end EdgeTable
end DeviceRelay
