/-
# JSON values with sorted objects

A number is a whole number, kept exactly, or a double. The members of an object
stand in ascending order of their names, and a name that is written twice keeps
its last value: both follow from building every object through `insertMember`.

Key definitions: `Json.Number`, `Json.Value`, `Json.insertMember`, `Json.Value.ofMembers`.
Key theorems: `Json.Value.same_iff`.
-/
import DeviceRelay.Number.Double

namespace DeviceRelay
namespace Json

/-- A JSON number. -/
inductive Number where
  /-- A whole number from `-2 ^ 63` below `2 ^ 64`. -/
  | int (n : Int)
  | double (x : Double)
  deriving DecidableEq, Repr

/-- A JSON value. -/
inductive Value where
  | null
  | bool (b : Bool)
  | num (n : Number)
  | str (s : String)
  | arr (items : List Value)
  | obj (members : List (String × Value))
  deriving Repr, Inhabited

/-- Puts a member in its place, over an earlier one of the same name. -/
def insertMember (name : String) (value : Value) :
    List (String × Value) → List (String × Value)
  | [] => [(name, value)]
  | (other, old) :: rest =>
    if name < other then (name, value) :: (other, old) :: rest
    else if name = other then (name, value) :: rest
    else (other, old) :: insertMember name value rest

namespace Value

/-- The object that results from writing the members in turn. -/
def ofMembers (members : List (String × Value)) : Value :=
  .obj (members.foldl (fun object member => insertMember member.1 member.2 object) [])

def member? (v : Value) (name : String) : Option Value :=
  match v with
  | .obj members => members.lookup name
  | _ => none

def ofNat (n : Nat) : Value := .num (.int n)

/-! ### Equality -/

mutual

/-- Whether two values are the same. -/
def same : Value → Value → Bool
  | .null, .null => true
  | .bool a, .bool b => a == b
  | .num a, .num b => a == b
  | .str a, .str b => a == b
  | .arr a, .arr b => sameItems a b
  | .obj a, .obj b => sameMembers a b
  | _, _ => false

/-- Whether two lists of values are the same. -/
def sameItems : List Value → List Value → Bool
  | [], [] => true
  | a :: as, b :: bs => same a b && sameItems as bs
  | _, _ => false

/-- Whether two lists of members are the same. -/
def sameMembers : List (String × Value) → List (String × Value) → Bool
  | [], [] => true
  | (m, a) :: as, (n, b) :: bs => m == n && same a b && sameMembers as bs
  | _, _ => false

end

mutual

theorem same_iff : ∀ a b : Value, same a b = true ↔ a = b
  | .null, b => by cases b <;> simp [same]
  | .bool _, b => by cases b <;> simp [same]
  | .num _, b => by cases b <;> simp [same]
  | .str _, b => by cases b <;> simp [same]
  | .arr x, b => by cases b <;> simp [same, sameItems_iff x]
  | .obj x, b => by cases b <;> simp [same, sameMembers_iff x]

theorem sameItems_iff : ∀ as bs : List Value, sameItems as bs = true ↔ as = bs
  | [], bs => by cases bs <;> simp [sameItems]
  | a :: as, bs => by cases bs <;> simp [sameItems, same_iff a, sameItems_iff as]

theorem sameMembers_iff : ∀ as bs : List (String × Value), sameMembers as bs = true ↔ as = bs
  | [], bs => by cases bs <;> simp [sameMembers]
  | (m, a) :: as, bs => by
    cases bs with
    | nil => simp [sameMembers]
    | cons b bs => obtain ⟨n, b⟩ := b; simp [sameMembers, same_iff a, sameMembers_iff as]

end

instance : DecidableEq Value := fun a b => decidable_of_iff _ (same_iff a b)

end Value
end Json
end DeviceRelay
