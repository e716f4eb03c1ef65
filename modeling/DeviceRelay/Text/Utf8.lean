/-
# A byte string splits into characters and stray bytes

UTF-8 text read from a peer need not be valid. `Utf8.glyphs` splits any byte
string into the characters it holds and the bytes that belong to none, so that
a reader can report a column in bytes and still pass over bad text.
`Utf8.decode` accepts valid text only and says where it goes wrong: a sequence
is either cut off by the end of the text or broken after so many bytes.

Key definitions: `Glyph`, `Utf8.next`, `Utf8.glyphs`, `Utf8.decode`, `Utf8.encode`.
-/

namespace DeviceRelay

/-- A piece of text: a character, or a byte that is part of none. -/
inductive Glyph where
  | char (c : Char)
  | stray (b : UInt8)
  deriving DecidableEq, Repr

namespace Utf8

/-- The bytes of a text. -/
def encode (text : List Char) : List UInt8 := text.flatMap String.utf8EncodeChar

/-- Why no character starts at a place. -/
inductive Flaw where
  /-- The text ends inside the character. -/
  | cutOff
  /-- The first `length` bytes start no character. -/
  | broken (length : Nat)
  deriving DecidableEq, Repr

/-- Whether `b` continues a character. -/
def isTail (b : UInt8) : Bool := 0x80 ≤ b && b ≤ 0xBF

/-- The low six bits of a continuation byte. -/
def tailBits (b : UInt8) : Nat := b.toNat % 64

/-- The second bytes that may follow the first byte `a` of a character of three bytes. -/
def secondOfThree (a b : UInt8) : Bool :=
  if a = 0xE0 then 0xA0 ≤ b && b ≤ 0xBF
  else if a = 0xED then 0x80 ≤ b && b ≤ 0x9F
  else isTail b

/-- The second bytes that may follow the first byte `a` of a character of four bytes. -/
def secondOfFour (a b : UInt8) : Bool :=
  if a = 0xF0 then 0x90 ≤ b && b ≤ 0xBF
  else if a = 0xF4 then 0x80 ≤ b && b ≤ 0x8F
  else isTail b

/-- A character of two bytes, after its first. -/
def nextTwo (a : UInt8) : List UInt8 → Except Flaw (Char × List UInt8)
  | [] => .error .cutOff
  | b :: rest =>
    if isTail b then .ok (Char.ofNat (a.toNat % 32 * 64 + tailBits b), rest)
    else .error (.broken 1)

/-- A character of three bytes, after its first. -/
def nextThree (a : UInt8) : List UInt8 → Except Flaw (Char × List UInt8)
  | [] => .error .cutOff
  | [b] => if secondOfThree a b then .error .cutOff else .error (.broken 1)
  | b :: c :: rest =>
    if !secondOfThree a b then .error (.broken 1)
    else if !isTail c then .error (.broken 2)
    else .ok (Char.ofNat ((a.toNat % 16 * 64 + tailBits b) * 64 + tailBits c), rest)

/-- A character of four bytes, after its first. -/
def nextFour (a : UInt8) : List UInt8 → Except Flaw (Char × List UInt8)
  | [] => .error .cutOff
  | [b] => if secondOfFour a b then .error .cutOff else .error (.broken 1)
  | [b, c] =>
    if !secondOfFour a b then .error (.broken 1)
    else if !isTail c then .error (.broken 2)
    else .error .cutOff
  | b :: c :: d :: rest =>
    if !secondOfFour a b then .error (.broken 1)
    else if !isTail c then .error (.broken 2)
    else if !isTail d then .error (.broken 3)
    else
      .ok (Char.ofNat (((a.toNat % 8 * 64 + tailBits b) * 64 + tailBits c) * 64 + tailBits d), rest)

/-- The character that starts with byte `a`, and what follows it. -/
def next (a : UInt8) (rest : List UInt8) : Except Flaw (Char × List UInt8) :=
  if a < 0x80 then .ok (Char.ofNat a.toNat, rest)
  else if 0xC2 ≤ a && a ≤ 0xDF then nextTwo a rest
  else if 0xE0 ≤ a && a ≤ 0xEF then nextThree a rest
  else if 0xF0 ≤ a && a ≤ 0xF4 then nextFour a rest
  else .error (.broken 1)

/-- At most `fuel` glyphs of a byte string. -/
def glyphsUpTo : Nat → List UInt8 → List Glyph
  | 0, _ => []
  | _, [] => []
  | fuel + 1, a :: rest =>
    match next a rest with
    | .ok (c, rest) => .char c :: glyphsUpTo fuel rest
    | .error _ => .stray a :: glyphsUpTo fuel rest

/-- The glyphs of a byte string. Each takes a byte, so its length bounds them. -/
def glyphs (bytes : List UInt8) : List Glyph := glyphsUpTo bytes.length bytes

/-- Where a text stops being valid, and why. -/
structure Fault where
  flaw : Flaw
  index : Nat
  deriving DecidableEq, Repr

def Fault.message (fault : Fault) : String :=
  match fault.flaw with
  | .cutOff => s!"incomplete utf-8 byte sequence from index {fault.index}"
  | .broken length => s!"invalid utf-8 sequence of {length} bytes from index {fault.index}"

/-- At most `fuel` characters of a byte string that starts at `index`. -/
def decodeUpTo : Nat → Nat → List UInt8 → Except Fault (List Char)
  | 0, _, _ => .ok []
  | _, _, [] => .ok []
  | fuel + 1, index, a :: rest =>
    match next a rest with
    | .error flaw => .error ⟨flaw, index⟩
    | .ok (c, rest) =>
      match decodeUpTo fuel (index + c.utf8Size) rest with
      | .ok text => .ok (c :: text)
      | .error fault => .error fault

/-- The text of valid bytes, or its first fault. -/
def decode (bytes : List UInt8) : Except Fault (List Char) :=
  decodeUpTo bytes.length 0 bytes

end Utf8

namespace Glyph

def bytes : Glyph → List UInt8
  | .char c => String.utf8EncodeChar c
  | .stray b => [b]

def width : Glyph → Nat
  | .char c => c.utf8Size
  | .stray _ => 1

def ofText (text : List Char) : List Glyph := text.map .char

/-- The character of a glyph, unless it is a stray byte. -/
def char? : Glyph → Option Char
  | .char c => some c
  | .stray _ => none

end Glyph
end DeviceRelay
