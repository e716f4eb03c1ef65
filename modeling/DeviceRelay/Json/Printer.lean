/-
# JSON text without spaces

A value is written with no white space. Text escapes the quote, the backslash and
the control characters, five of them by letter; all other characters stand for
themselves. A double is written with the fewest digits that read back,
positionally from `1e-5` below `1e+16`.

Key definitions: `Json.printString`, `Json.printNumber`, `Json.print`, `Json.text`.
-/
import DeviceRelay.Json.Value
import DeviceRelay.Number.Shortest
import DeviceRelay.Text.Hex

namespace DeviceRelay
namespace Json

/-- Doubles are positional from `1e-5` below `1e16`, and an exponent shows its sign. -/
def floatLayout : FloatLayout := ⟨-5, 16, ['+']⟩

def escapeChar (c : Char) : List Char :=
  match c with
  | '"' => ['\\', '"']
  | '\\' => ['\\', '\\']
  | '\x08' => ['\\', 'b']
  | '\x0c' => ['\\', 'f']
  | '\n' => ['\\', 'n']
  | '\r' => ['\\', 'r']
  | '\t' => ['\\', 't']
  | c => if c.toNat < 0x20 then ['\\', 'u'] ++ Hex.padded 4 c.toNat else [c]

/-- A text in quotes. -/
def printString (s : String) : List Char :=
  '"' :: (s.toList.flatMap escapeChar ++ ['"'])

def printInt (n : Int) : List Char :=
  if n < 0 then '-' :: Nat.toDigits 10 n.natAbs else Nat.toDigits 10 n.natAbs

/-- A number. -/
def printNumber : Number → List Char
  | .int n => printInt n
  | .double x => floatLayout.text x

mutual

/-- A value as JSON text. -/
def print : Value → List Char
  | .null => ['n', 'u', 'l', 'l']
  | .bool true => ['t', 'r', 'u', 'e']
  | .bool false => ['f', 'a', 'l', 's', 'e']
  | .num n => printNumber n
  | .str s => printString s
  | .arr items => '[' :: (printItems items ++ [']'])
  | .obj members => '\x7b' :: (printMembers members ++ ['\x7d'])

def printItems : List Value → List Char
  | [] => []
  | [item] => print item
  | item :: rest => print item ++ ',' :: printItems rest

def printMembers : List (String × Value) → List Char
  | [] => []
  | [(name, value)] => printString name ++ ':' :: print value
  | (name, value) :: rest => printString name ++ ':' :: (print value ++ ',' :: printMembers rest)

end

/-- An object whose members are already written, in the given order. -/
def printFields (fields : List (String × List Char)) : List Char :=
  let written := fields.map fun field => printString field.1 ++ ':' :: field.2
  '\x7b' :: (List.intercalate [','] written ++ ['\x7d'])

/-- A value as JSON text. -/
def text (value : Value) : String := String.ofList (print value)

end Json
end DeviceRelay
