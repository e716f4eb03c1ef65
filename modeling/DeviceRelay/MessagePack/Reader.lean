/-
# Reading MessagePack

The reader first takes the item at the front of the bytes, of whatever form, and
what follows it. Brackets are counted down, so nothing nests deeper than the
limit. A JSON value is then made of the items that can stand for one: all but raw
bytes and extensions, with texts that are valid and a text as the name of the
first member of a map.

Key definitions: `MessagePack.Item`, `MessagePack.read`, `MessagePack.Item.toValue?`.
-/
import DeviceRelay.MessagePack.Writer

namespace DeviceRelay
namespace MessagePack

open Json (Value Number)

/-- What one marker and its bytes stand for. -/
inductive Item where
  | nil
  | bool (b : Bool)
  /-- A number in an unsigned form. -/
  | unsigned (n : Nat)
  /-- A number in a signed form. -/
  | signed (n : Int)
  | float (x : Double)
  | text (bytes : List UInt8)
  | binary (bytes : List UInt8)
  | list (items : List Item)
  | map (members : List (Item × Item))
  | extension
  deriving Repr

/-- How many lists, maps and extensions may be open at once. -/
def depthLimit : Nat := 1023

/-- The number whose bytes these are, the highest first. -/
def number (bytes : List UInt8) : Nat := bytes.foldl (fun n b => n * 256 + b.toNat) 0

/-- The first `count` bytes and what follows them. -/
def take? (count : Nat) (bytes : List UInt8) : Option (List UInt8 × List UInt8) :=
  let front := bytes.take count
  if front.length = count then some (front, bytes.drop count) else none

def readNumber (width : Nat) (bytes : List UInt8) : Option (Nat × List UInt8) :=
  (take? width bytes).map fun (front, rest) => (number front, rest)

/-- A number of `width` bytes in two's complement. -/
def readSigned (width : Nat) (bytes : List UInt8) : Option (Int × List UInt8) :=
  (readNumber width bytes).map fun (n, rest) =>
    (if n < twoTo (8 * width - 1) then (n : Int) else (n : Int) - twoTo (8 * width), rest)

/-- `count` bytes after a length of `width` bytes. -/
def readBlock (width : Nat) (bytes : List UInt8) : Option (List UInt8 × List UInt8) := do
  let (count, rest) ← readNumber width bytes
  take? count rest

/-- `count` things in a row, each read by `one`. -/
def readMany {α : Type} (one : List UInt8 → Option (α × List UInt8)) :
    Nat → List UInt8 → Option (List α × List UInt8)
  | 0, bytes => some ([], bytes)
  | count + 1, bytes => do
    let (a, rest) ← one bytes
    let (more, rest) ← readMany one count rest
    return (a :: more, rest)

/-- An extension of `count` bytes after its type. -/
def readExtension (count : Nat) (bytes : List UInt8) : Option (Item × List UInt8) :=
  (take? (count + 1) bytes).map fun (_, rest) => (.extension, rest)

/-- An item that holds no other items, after its marker. -/
def readPlain (marker : Nat) (bytes : List UInt8) : Option (Item × List UInt8) :=
  if marker < 0x80 then some (.unsigned marker, bytes)
  else if 0xe0 ≤ marker then some (.signed ((marker : Int) - 256), bytes)
  else if 0xa0 ≤ marker ∧ marker < 0xc0 then
    (take? (marker - 0xa0) bytes).map fun (text, rest) => (.text text, rest)
  else
    match marker with
    | 0xc0 => some (.nil, bytes)
    | 0xc2 => some (.bool false, bytes)
    | 0xc3 => some (.bool true, bytes)
    | 0xc4 => (readBlock 1 bytes).map fun (block, rest) => (.binary block, rest)
    | 0xc5 => (readBlock 2 bytes).map fun (block, rest) => (.binary block, rest)
    | 0xc6 => (readBlock 4 bytes).map fun (block, rest) => (.binary block, rest)
    | 0xca => (readNumber 4 bytes).map fun (n, rest) => (.float (Double.ofSingleBits n), rest)
    | 0xcb => (readNumber 8 bytes).map fun (n, rest) => (.float ⟨UInt64.ofNat n⟩, rest)
    | 0xcc => (readNumber 1 bytes).map fun (n, rest) => (.unsigned n, rest)
    | 0xcd => (readNumber 2 bytes).map fun (n, rest) => (.unsigned n, rest)
    | 0xce => (readNumber 4 bytes).map fun (n, rest) => (.unsigned n, rest)
    | 0xcf => (readNumber 8 bytes).map fun (n, rest) => (.unsigned n, rest)
    | 0xd0 => (readSigned 1 bytes).map fun (n, rest) => (.signed n, rest)
    | 0xd1 => (readSigned 2 bytes).map fun (n, rest) => (.signed n, rest)
    | 0xd2 => (readSigned 4 bytes).map fun (n, rest) => (.signed n, rest)
    | 0xd3 => (readSigned 8 bytes).map fun (n, rest) => (.signed n, rest)
    | 0xd9 => (readBlock 1 bytes).map fun (text, rest) => (.text text, rest)
    | 0xda => (readBlock 2 bytes).map fun (text, rest) => (.text text, rest)
    | 0xdb => (readBlock 4 bytes).map fun (text, rest) => (.text text, rest)
    | _ => none

/-- What a marker announces that holds other items. -/
inductive Container where
  | list (length : Nat)
  | map (length : Nat)
  | extension (length : Nat)

/-- The container a marker announces, and what follows its length. -/
def readContainer (marker : Nat) (bytes : List UInt8) : Option (Container × List UInt8) :=
  if 0x80 ≤ marker ∧ marker < 0x90 then some (.map (marker - 0x80), bytes)
  else if 0x90 ≤ marker ∧ marker < 0xa0 then some (.list (marker - 0x90), bytes)
  else
    match marker with
    | 0xc7 => (readNumber 1 bytes).map fun (n, rest) => (.extension n, rest)
    | 0xc8 => (readNumber 2 bytes).map fun (n, rest) => (.extension n, rest)
    | 0xc9 => (readNumber 4 bytes).map fun (n, rest) => (.extension n, rest)
    | 0xd4 => some (.extension 1, bytes)
    | 0xd5 => some (.extension 2, bytes)
    | 0xd6 => some (.extension 4, bytes)
    | 0xd7 => some (.extension 8, bytes)
    | 0xd8 => some (.extension 16, bytes)
    | 0xdc => (readNumber 2 bytes).map fun (n, rest) => (.list n, rest)
    | 0xdd => (readNumber 4 bytes).map fun (n, rest) => (.list n, rest)
    | 0xde => (readNumber 2 bytes).map fun (n, rest) => (.map n, rest)
    | 0xdf => (readNumber 4 bytes).map fun (n, rest) => (.map n, rest)
    | _ => none

/-- A pair of things, one after the other. -/
def readPair {α : Type} (one : List UInt8 → Option (α × List UInt8)) (bytes : List UInt8) :
    Option ((α × α) × List UInt8) := do
  let (a, rest) ← one bytes
  let (b, rest) ← one rest
  return ((a, b), rest)

/-- The item at the front of the bytes, with at most `depth` containers open at once. -/
def read : Nat → List UInt8 → Option (Item × List UInt8)
  | _, [] => none
  | 0, marker :: rest => readPlain marker.toNat rest
  | depth + 1, marker :: rest =>
    match readContainer marker.toNat rest with
    | none => readPlain marker.toNat rest
    | some (.list length, rest) =>
      (readMany (read depth) length rest).map fun (items, rest) => (.list items, rest)
    | some (.map length, rest) =>
      (readMany (readPair (read depth)) length rest).map fun (members, rest) => (.map members, rest)
    | some (.extension length, rest) => readExtension length rest

namespace Item

def text? (bytes : List UInt8) : Option String :=
  match Utf8.decode bytes with
  | .ok chars => some (String.ofList chars)
  | .error _ => none

/-- A text in either of the forms that can hold one. -/
def toText? : Item → Option String
  | .text bytes | .binary bytes => text? bytes
  | _ => none

def toInt? : Item → Option Int
  | .unsigned n => some n
  | .signed n => some n
  | _ => none

mutual

/-- The JSON value an item stands for. A double that is no number is null. -/
def toValue? : Item → Option Value
  | .nil => some .null
  | .bool b => some (.bool b)
  | .unsigned n => some (.num (.int n))
  | .signed n => some (.num (.int n))
  | .float x => some (if x.isFinite then .num (.double x) else .null)
  | .text bytes => (text? bytes).map .str
  | .list items => (itemsToValues? items).map .arr
  | .map members => (membersToValues? true members).map Value.ofMembers
  | .binary _ | .extension => none

def itemsToValues? : List Item → Option (List Value)
  | [] => some []
  | item :: rest => do
    let value ← toValue? item
    let values ← itemsToValues? rest
    return value :: values

/-- The members of a map. The name of the first must be in the form of a text. -/
def membersToValues? : Bool → List (Item × Item) → Option (List (String × Value))
  | _, [] => some []
  | first, (name, item) :: rest => do
    let name ← match name with
      | .text bytes => text? bytes
      | .binary bytes => if first then none else text? bytes
      | _ => none
    let value ← toValue? item
    let members ← membersToValues? false rest
    return (name, value) :: members

end

end Item
end MessagePack
end DeviceRelay
