/-
# MessagePack in its shortest forms

Every number, text, list and map is written with the shortest marker that holds
it; a whole number that is not negative has an unsigned form. Numbers are
big-endian.

Key definitions: `MessagePack.bigEndian`, `MessagePack.writeInt`,
`MessagePack.writeText`, `MessagePack.write`.
-/
import DeviceRelay.Json.Value
import DeviceRelay.Text.Utf8

namespace DeviceRelay
namespace MessagePack

open Json (Value Number)

/-- The lowest `width` bytes of a number, the highest first. -/
def bigEndian : Nat → Nat → List UInt8
  | 0, _ => []
  | width + 1, n => bigEndian width (n / 256) ++ [UInt8.ofNat (n % 256)]

/-- A natural number below `2 ^ 64`. -/
def writeNat (n : Nat) : List UInt8 :=
  if n < 0x80 then [UInt8.ofNat n]
  else if n < twoTo 8 then 0xcc :: bigEndian 1 n
  else if n < twoTo 16 then 0xcd :: bigEndian 2 n
  else if n < twoTo 32 then 0xce :: bigEndian 4 n
  else 0xcf :: bigEndian 8 n

/-- A whole number. A negative one is written modulo the size of its form. -/
def writeInt (n : Int) : List UInt8 :=
  if 0 ≤ n then writeNat n.toNat
  else if -32 ≤ n then [UInt8.ofNat (n + 256).toNat]
  else if -128 ≤ n then 0xd0 :: bigEndian 1 (n + twoTo 8).toNat
  else if -(twoTo 15) ≤ n then 0xd1 :: bigEndian 2 (n + twoTo 16).toNat
  else if -(twoTo 31) ≤ n then 0xd2 :: bigEndian 4 (n + twoTo 32).toNat
  else 0xd3 :: bigEndian 8 (n + twoTo 64).toNat

/-- The marker of a text of so many bytes. -/
def textMarker (length : Nat) : List UInt8 :=
  if length < 32 then [UInt8.ofNat (0xa0 + length)]
  else if length < twoTo 8 then 0xd9 :: bigEndian 1 length
  else if length < twoTo 16 then 0xda :: bigEndian 2 length
  else 0xdb :: bigEndian 4 length

/-- The marker of a list of so many items. -/
def listMarker (length : Nat) : List UInt8 :=
  if length < 16 then [UInt8.ofNat (0x90 + length)]
  else if length < twoTo 16 then 0xdc :: bigEndian 2 length
  else 0xdd :: bigEndian 4 length

/-- The marker of a map of so many members. -/
def mapMarker (length : Nat) : List UInt8 :=
  if length < 16 then [UInt8.ofNat (0x80 + length)]
  else if length < twoTo 16 then 0xde :: bigEndian 2 length
  else 0xdf :: bigEndian 4 length

/-- A text. -/
def writeText (s : String) : List UInt8 :=
  let bytes := Utf8.encode s.toList
  textMarker bytes.length ++ bytes

def writeNumber : Number → List UInt8
  | .int n => writeInt n
  | .double x => 0xcb :: bigEndian 8 x.bits.toNat

mutual

/-- A value. -/
def write : Value → List UInt8
  | .null => [0xc0]
  | .bool false => [0xc2]
  | .bool true => [0xc3]
  | .num n => writeNumber n
  | .str s => writeText s
  | .arr items => listMarker items.length ++ writeItems items
  | .obj members => mapMarker members.length ++ writeMembers members

def writeItems : List Value → List UInt8
  | [] => []
  | item :: rest => write item ++ writeItems rest

/-- Names and values one after another. -/
def writeMembers : List (String × Value) → List UInt8
  | [] => []
  | (name, value) :: rest => writeText name ++ (write value ++ writeMembers rest)

end

end MessagePack
end DeviceRelay
