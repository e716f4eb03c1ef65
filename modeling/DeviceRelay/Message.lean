/-
# Messages and their packed form

A message waits in the queue of its recipient as MessagePack bytes: a map of its
six fields. Reading is more liberal than writing. The fields may come in any order,
named by a text, by raw bytes or by their number; others are passed over; a list of
exactly the six fields will do as well. Bytes after the message do not matter.

Key definitions: `MessageKind`, `Message`, `Message.pack`, `Message.unpack?`.
-/
import DeviceRelay.MessagePack.Reader
import DeviceRelay.Principal

namespace DeviceRelay

open Json (Value)

/-- Whether a message asks or answers. -/
inductive MessageKind where
  | request
  | response
  deriving DecidableEq, Repr, Inhabited

namespace MessageKind

def name : MessageKind → String
  | .request => "request"
  | .response => "response"

def named : List (String × MessageKind) := [("request", .request), ("response", .response)]

def ofName? (name : String) : Option MessageKind := named.lookup name

def ofNumber? (n : Nat) : Option MessageKind := (named.map (·.2))[n]?

end MessageKind

/-- A message on its way to one recipient. -/
structure Message where
  kind : MessageKind
  /-- Ties an answer to what it answers. -/
  correlationId : String
  sender : PrincipalId
  recipient : PrincipalId
  /-- Seconds since 1970. -/
  createdAt : Int
  data : Value
  deriving DecidableEq, Repr

namespace Message

/-- The fields of a message in the order written. -/
def fields (m : Message) : List (String × Value) :=
  [("kind", .str m.kind.name), ("correlation_id", .str m.correlationId),
    ("sender_id", m.sender.json), ("recipient_id", m.recipient.json),
    ("created_at", .num (.int m.createdAt)), ("data", m.data)]

/-- A message as bytes. -/
def pack (m : Message) : List UInt8 :=
  MessagePack.mapMarker m.fields.length ++ MessagePack.writeMembers m.fields

def jsonText (m : Message) : String :=
  String.ofList (Json.printFields (m.fields.map fun field => (field.1, Json.print field.2)))

/-! ### Reading -/

open MessagePack (Item)

structure Draft where
  kind : Option MessageKind
  correlationId : Option String
  sender : Option PrincipalId
  recipient : Option PrincipalId
  createdAt : Option Int
  data : Option Value

def Draft.blank : Draft := ⟨none, none, none, none, none, none⟩

/-- A kind by name, by number, or as the one member of a map. -/
def kind? : Item → Option MessageKind
  | .text bytes | .binary bytes => (Item.text? bytes).bind MessageKind.ofName?
  | .unsigned n => MessageKind.ofNumber? n
  | .map [(.text bytes, .nil)] | .map [(.binary bytes, .nil)] =>
    (Item.text? bytes).bind MessageKind.ofName?
  | .map [(.unsigned n, .nil)] => MessageKind.ofNumber? n
  | _ => none

def principal? (item : Item) : Option PrincipalId :=
  item.toInt?.bind fun n => if 0 ≤ n then some (.ofNat n.toNat) else none

def stamp? (item : Item) : Option Int :=
  item.toInt?.bind fun n => if n < twoTo 63 then some n else none

/-- The draft with one more field, by its number. A field may not come twice; one with
a higher number is passed over. -/
def Draft.put (draft : Draft) (field : Nat) (item : Item) : Option Draft :=
  match field with
  | 0 => if draft.kind.isSome then none
    else (kind? item).map fun kind => { draft with kind := some kind }
  | 1 => if draft.correlationId.isSome then none
    else item.toText?.map fun id => { draft with correlationId := some id }
  | 2 => if draft.sender.isSome then none
    else (principal? item).map fun id => { draft with sender := some id }
  | 3 => if draft.recipient.isSome then none
    else (principal? item).map fun id => { draft with recipient := some id }
  | 4 => if draft.createdAt.isSome then none
    else (stamp? item).map fun stamp => { draft with createdAt := some stamp }
  | 5 => if draft.data.isSome then none
    else item.toValue?.map fun value => { draft with data := some value }
  | _ => some draft

/-- The names of the fields in the order of their numbers. -/
def fieldNames : List String :=
  ["kind", "correlation_id", "sender_id", "recipient_id", "created_at", "data"]

/-- The number of the field that a member names. A text that names none has a number
beyond the fields. -/
def fieldNumber? : Item → Option Nat
  | .text bytes | .binary bytes =>
    match Item.text? bytes with
    | some name => some (fieldNames.idxOf name)
    | none => some fieldNames.length
  | .unsigned n => some n
  | _ => none

/-- The draft with the members of a map. -/
def Draft.putMembers : Draft → List (Item × Item) → Option Draft
  | draft, [] => some draft
  | draft, (name, item) :: rest => do
    let field ← fieldNumber? name
    let draft ← draft.put field item
    draft.putMembers rest

/-- The message of a complete draft. -/
def Draft.finish (draft : Draft) : Option Message := do
  let kind ← draft.kind
  let correlationId ← draft.correlationId
  let sender ← draft.sender
  let recipient ← draft.recipient
  let createdAt ← draft.createdAt
  let data ← draft.data
  return ⟨kind, correlationId, sender, recipient, createdAt, data⟩

/-- The message an item stands for. -/
def ofItem? : Item → Option Message
  | .map members => (Draft.blank.putMembers members).bind Draft.finish
  | .list items =>
    if items.length = fieldNames.length then
      let members := items.mapIdx fun i item => (Item.unsigned i, item)
      (Draft.blank.putMembers members).bind Draft.finish
    else none
  | _ => none

/-- The message at the front of the bytes. -/
def unpack? (bytes : List UInt8) : Option Message :=
  (MessagePack.read MessagePack.depthLimit bytes).bind fun (item, _) => ofItem? item

end Message
end DeviceRelay
