/-
# Text in quotes shows every character

Names inside error texts and descriptions stand in double quotes. A quote, a
backslash and the common controls are escaped by name, and every other character
without a printed form by its code point, so that two different texts never look
the same.

Key definitions: `Text.quoteChar`, `Text.quoted`.
-/
import DeviceRelay.Text.Unprinted
import DeviceRelay.Text.Hex

namespace DeviceRelay
namespace Text

/-- How a character is shown between double quotes. -/
def quoteChar (c : Char) : List Char :=
  match c with
  | '\x00' => ['\\', '0']
  | '\t' => ['\\', 't']
  | '\r' => ['\\', 'r']
  | '\n' => ['\\', 'n']
  | '"' => ['\\', '"']
  | '\\' => ['\\', '\\']
  | c => if isUnprinted c then ['\\', 'u', '\x7b'] ++ Hex.ofNat c.toNat ++ ['\x7d'] else [c]

/-- A text in double quotes. -/
def quoted (text : String) : String :=
  String.ofList (['"'] ++ text.toList.flatMap quoteChar ++ ['"'])

end Text
end DeviceRelay
