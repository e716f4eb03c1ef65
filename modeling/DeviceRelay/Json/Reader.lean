/-
# Reading JSON text

A reader takes the text that is left and gives what it read with what is left
then. Nested brackets are counted down, so that no text makes the reader go
deeper than its limit; a value whose member is unknown is passed over without
such a limit, and only its form is checked.

A number with a fraction or an exponent is read in two roundings: its digits as
far as they fit 64 bits, then the power of ten.

Key definitions: `Json.skipBlank`, `Json.readString`, `Json.readNumber`,
`Json.readValue`, `Json.skipValue`, `Json.depthLimit`.
-/
import DeviceRelay.Json.Fault

namespace DeviceRelay
namespace Json

abbrev Read (α : Type) := Except Fault (α × Input)

/-- How many brackets may be open at once. -/
def depthLimit : Nat := 127

/-- Whether a glyph is white space between values. -/
def isSpace : Glyph → Bool
  | .char ' ' | .char '\n' | .char '\t' | .char '\r' => true
  | _ => false

/-- The text after its leading white space. -/
def skipBlank (input : Input) : Input := input.dropWhile isSpace

/-! ### Words -/

/-- The rest of a word, letter by letter. -/
def readWord : List Char → Input → Except Fault Input
  | [], input => .ok input
  | c :: word, .char d :: rest =>
    if c = d then readWord word rest else .error (.upon (.char d :: rest) .expectedIdentifier)
  | _ :: _, .stray b :: rest => .error (.upon (.stray b :: rest) .expectedIdentifier)
  | _ :: _, [] => .error (.upon [] .endInValue)

/-! ### Strings -/

/-- The value of four hexadecimal digits, of which there must be as many bytes. -/
def readHex (input : Input) : Except Fault (Nat × Input) :=
  let short : Fault :=
    if byteCount input < 4 then ⟨.endInString, .before 0, []⟩
    else ⟨.invalidEscape, .before (byteCount input - 4), []⟩
  match input with
  | .char a :: .char b :: .char c :: .char d :: rest =>
    match Hex.value? a, Hex.value? b, Hex.value? c, Hex.value? d with
    | some a, some b, some c, some d => .ok (((a * 16 + b) * 16 + c) * 16 + d, rest)
    | _, _, _, _ => .error short
  | _ => .error short

/-- The second half of a character beyond the basic plane, whose first half is `high`. -/
def readLowSurrogate (high : Nat) : Input → Except Fault (Char × Input)
  | .char '\\' :: .char 'u' :: rest =>
    match readHex rest with
    | .error fault => .error fault
    | .ok (low, rest) =>
      if 0xDC00 ≤ low ∧ low ≤ 0xDFFF then
        .ok (Char.ofNat ((high - 0xD800) * 1024 + (low - 0xDC00) + 0x10000), rest)
      else .error (.after rest .loneSurrogate)
  | [.char '\\'] => .error (.upon [] .endInString)
  | .char '\\' :: rest => .error (.upon rest .unfinishedSurrogate)
  | [] => .error (.upon [] .endInString)
  | rest => .error (.upon rest .unfinishedSurrogate)

/-- The character an escape stands for, after the backslash. -/
def readEscape : Input → Except Fault (Char × Input)
  | [] => .error (.upon [] .endInString)
  | .char '"' :: rest => .ok ('"', rest)
  | .char '\\' :: rest => .ok ('\\', rest)
  | .char '/' :: rest => .ok ('/', rest)
  | .char 'b' :: rest => .ok ('\x08', rest)
  | .char 'f' :: rest => .ok ('\x0c', rest)
  | .char 'n' :: rest => .ok ('\n', rest)
  | .char 'r' :: rest => .ok ('\r', rest)
  | .char 't' :: rest => .ok ('\t', rest)
  | .char 'u' :: rest =>
    match readHex rest with
    | .error fault => .error fault
    | .ok (n, rest) =>
      if 0xDC00 ≤ n ∧ n ≤ 0xDFFF then .error (.after rest .loneSurrogate)
      else if 0xD800 ≤ n ∧ n ≤ 0xDBFF then readLowSurrogate n rest
      else .ok (Char.ofNat n, rest)
  | rest => .error (.upon rest .invalidEscape)

/-- The glyphs of a string up to its closing quote, at most `fuel` of them. -/
def readGlyphs : Nat → Input → Except Fault (List Glyph × Input)
  | 0, input => .error (.upon input .endInString)
  | _, [] => .error (.upon [] .endInString)
  | _ + 1, .char '"' :: rest => .ok ([], rest)
  | fuel + 1, .char '\\' :: rest =>
    match readEscape rest with
    | .error fault => .error fault
    | .ok (c, rest) =>
      match readGlyphs fuel rest with
      | .error fault => .error fault
      | .ok (glyphs, rest) => .ok (.char c :: glyphs, rest)
  | fuel + 1, .char c :: rest =>
    if c.toNat < 0x20 then .error (.upon (.char c :: rest) .controlCharacter)
    else
      match readGlyphs fuel rest with
      | .error fault => .error fault
      | .ok (glyphs, rest) => .ok (.char c :: glyphs, rest)
  | fuel + 1, .stray b :: rest =>
    match readGlyphs fuel rest with
    | .error fault => .error fault
    | .ok (glyphs, rest) => .ok (.stray b :: glyphs, rest)

/-- A string after its opening quote. Stray bytes are a fault of the whole string, told
at its last character. -/
def readString (input : Input) : Read String :=
  match readGlyphs (input.length + 1) input with
  | .error fault => .error fault
  | .ok (glyphs, rest) =>
    match glyphs.mapM Glyph.char? with
    | some text => .ok (String.ofList text, rest)
    | none => .error (.after (.char '"' :: rest) .invalidText)

/-- Passes over a string after its opening quote; at most `fuel` glyphs. -/
def skipString : Nat → Input → Except Fault Input
  | 0, input => .error (.upon input .endInString)
  | _, [] => .error (.upon [] .endInString)
  | _ + 1, .char '"' :: rest => .ok rest
  | fuel + 1, .char '\\' :: .char c :: rest =>
    if c ∈ ['"', '\\', '/', 'b', 'f', 'n', 'r', 't'] then skipString fuel rest
    else if c = 'u' then
      match readHex rest with
      | .error fault => .error fault
      | .ok (_, rest) => skipString fuel rest
    else .error (.upon (.char c :: rest) .invalidEscape)
  | _ + 1, [.char '\\'] => .error (.upon [] .endInString)
  | _ + 1, .char '\\' :: rest => .error (.upon rest .invalidEscape)
  | fuel + 1, .char c :: rest =>
    if c.toNat < 0x20 then .error (.after (.char c :: rest) .controlCharacter)
    else skipString fuel rest
  | fuel + 1, .stray _ :: rest => skipString fuel rest

/-! ### Numbers -/

def digit? : Glyph → Option Nat
  | .char c => if '0' ≤ c ∧ c ≤ '9' then some (c.toNat - 0x30) else none
  | .stray _ => none

/-- The digits at the front of a text. -/
def readDigits : Input → List Nat × Input
  | [] => ([], [])
  | g :: rest =>
    match digit? g with
    | some d => (d :: (readDigits rest).1, (readDigits rest).2)
    | none => ([], g :: rest)

/-- Appends digits to a number of 64 bits while they fit. Gives the number and how
many digits were left out. -/
def absorb (n : Nat) : List Nat → Nat × Nat
  | [] => (n, 0)
  | d :: ds => if n * 10 + d < twoTo 64 then absorb (n * 10 + d) ds else (n, (d :: ds).length)

/-- `x * 10 ^ exponent` by steps that each round once, `none` beyond the largest double. -/
def scaleByTen : Nat → Double → Int → Option Double
  | 0, x, _ => some x
  | fuel + 1, x, exponent =>
    if exponent.natAbs ≤ 308 then
      if 0 ≤ exponent then
        let product := x.mul (Double.ofNat (tenTo exponent.natAbs))
        if product.isFinite then some product else none
      else some (x.div (Double.ofNat (tenTo exponent.natAbs)))
    else if x.isZero then some x
    else if 0 ≤ exponent then none
    else scaleByTen fuel (x.div (Double.ofNat (tenTo 308))) (exponent + 308)

/-- The double for a sign, leading digits and a power of ten. -/
def assemble (negative : Bool) (n : Nat) (exponent : Int) (rest : Input) : Read Number :=
  match scaleByTen (exponent.natAbs / 308 + 2) (Double.ofNat n) exponent with
  | some x => .ok (.double (if negative then x.neg else x), rest)
  | none => .error (.after rest .numberOutOfRange)

/-- The largest exponent that is read as a number. -/
def exponentLimit : Nat := twoTo 31 - 1

/-- Reads on in an exponent; `none` and what follows the digit with which it leaves
the limit. -/
def readExponentDigits (n : Nat) : Input → Option Nat × Input
  | [] => (some n, [])
  | g :: rest =>
    match digit? g with
    | some d =>
      if n * 10 + d ≤ exponentLimit then readExponentDigits (n * 10 + d) rest else (none, rest)
    | none => (some n, g :: rest)

/-- The sign of an exponent, `true` if it is negative. -/
def readExponentSign : Input → Bool × Input
  | .char '+' :: rest => (false, rest)
  | .char '-' :: rest => (true, rest)
  | input => (false, input)

/-- A number from its exponent on, after the letter. -/
def readExponent (negative : Bool) (n : Nat) (start : Int) (input : Input) : Read Number :=
  let (down, input) := readExponentSign input
  match input with
  | [] => .error (.upon [] .endInValue)
  | g :: rest =>
    match digit? g with
    | none => .error (.upon (g :: rest) .invalidNumber)
    | some d =>
      match readExponentDigits d rest with
      | (some e, rest) => assemble negative n (if down then start - e else start + e) rest
      | (none, rest) =>
        if n ≠ 0 ∧ down = false then .error (.after rest .numberOutOfRange)
        else .ok (.double (Double.zero negative), (readDigits rest).2)

/-- Whether a glyph starts an exponent. -/
def isExponentMark : Glyph → Bool
  | .char 'e' | .char 'E' => true
  | _ => false

/-- A number from its fraction on, after the point. `start` digits of the whole part
were left out of `n`. -/
def readFraction (negative : Bool) (n : Nat) (start : Nat) (input : Input) : Read Number :=
  let (digits, rest) := readDigits input
  if digits.isEmpty then
    .error (.upon rest (if rest.isEmpty then .endInValue else .invalidNumber))
  else
    let (n, left) := absorb n digits
    let exponent : Int := (start : Int) - ((digits.length - left : Nat) : Int)
    match rest with
    | g :: more => if isExponentMark g then readExponent negative n exponent more
      else assemble negative n exponent rest
    | [] => assemble negative n exponent rest

/-- A whole number of 64 bits, or the double nearest to one that is not. -/
def wholeNumber (negative : Bool) (n : Nat) : Number :=
  if !negative then .int n
  else if 0 < n ∧ n ≤ twoTo 63 then .int (-(n : Int))
  else .double (Double.ofNat n).neg

/-- A number after its sign, at its first digit. -/
def readNumber (negative : Bool) (input : Input) : Read Number :=
  let (digits, rest) := readDigits input
  match digits with
  | [] => .error (.upon rest (if rest.isEmpty then .endInValue else .invalidNumber))
  | 0 :: _ :: _ => .error (.upon (input.drop 1) .invalidNumber)
  | digits =>
    let (n, left) := absorb 0 digits
    match rest with
    | .char '.' :: more => readFraction negative n left more
    | .char 'e' :: more | .char 'E' :: more => readExponent negative n left more
    | _ => if left = 0 then .ok (wholeNumber negative n, rest) else assemble negative n left rest

/-- Passes over the exponent of a number, after the letter. -/
def skipExponent (input : Input) : Except Fault Input :=
  let (_, input) := readExponentSign input
  let (digits, rest) := readDigits input
  if digits.isEmpty then .error (.upon rest .invalidNumber) else .ok rest

/-- Passes over a number after its sign. -/
def skipNumber (input : Input) : Except Fault Input :=
  let (digits, rest) := readDigits input
  match digits with
  | [] => .error (.upon rest .invalidNumber)
  | 0 :: _ :: _ => .error (.upon (input.drop 1) .invalidNumber)
  | _ =>
    match rest with
    | .char '.' :: more =>
      let (fraction, rest) := readDigits more
      if fraction.isEmpty then .error (.upon rest .invalidNumber)
      else
        match rest with
        | g :: more => if isExponentMark g then skipExponent more else .ok rest
        | [] => .ok rest
    | .char 'e' :: more | .char 'E' :: more => skipExponent more
    | _ => .ok rest

/-! ### Lists and objects -/

/-- Whether another item of a list follows; its text if so, the closing bracket if not. -/
def nextItem (first : Bool) (input : Input) : Except Fault (Bool × Input) :=
  match skipBlank input with
  | [] => .error (.upon [] .endInList)
  | .char ']' :: rest => .ok (false, .char ']' :: rest)
  | .char ',' :: rest =>
    if first then .ok (true, .char ',' :: rest)
    else
      match skipBlank rest with
      | [] => .error (.upon [] .endInValue)
      | .char ']' :: rest => .error (.upon (.char ']' :: rest) .trailingComma)
      | rest => .ok (true, rest)
  | rest => if first then .ok (true, rest) else .error (.upon rest .expectedCommaOrBracket)

/-- Whether another member of an object follows; its name from the opening quote if
so, the closing brace if not. -/
def nextName (first : Bool) (input : Input) : Except Fault (Bool × Input) :=
  match skipBlank input with
  | [] => .error (.upon [] .endInObject)
  | .char '\x7d' :: rest => .ok (false, .char '\x7d' :: rest)
  | .char ',' :: rest =>
    if first then .error (.upon (.char ',' :: rest) .keyNotString)
    else
      match skipBlank rest with
      | [] => .error (.upon [] .endInValue)
      | .char '"' :: rest => .ok (true, .char '"' :: rest)
      | .char '\x7d' :: rest => .error (.upon (.char '\x7d' :: rest) .trailingComma)
      | rest => .error (.upon rest .keyNotString)
  | .char '"' :: rest =>
    if first then .ok (true, .char '"' :: rest)
    else .error (.upon (.char '"' :: rest) .expectedCommaOrBrace)
  | rest =>
    if first then .error (.upon rest .keyNotString) else .error (.upon rest .expectedCommaOrBrace)

/-- The text after the colon that follows a name. -/
def readColon (input : Input) : Except Fault Input :=
  match skipBlank input with
  | [] => .error (.upon [] .endInObject)
  | .char ':' :: rest => .ok rest
  | rest => .error (.upon rest .expectedColon)

/-- The text after the closing bracket of a list, once its reader has taken all it wants. -/
def endList (input : Input) : Except Fault Input :=
  match skipBlank input with
  | [] => .error (.upon [] .endInList)
  | .char ']' :: rest => .ok rest
  | .char ',' :: rest =>
    match skipBlank rest with
    | .char ']' :: rest => .error (.upon (.char ']' :: rest) .trailingComma)
    | rest => .error (.upon rest .trailingCharacters)
  | rest => .error (.upon rest .trailingCharacters)

/-- The text after the closing brace of an object, once its reader has taken all it wants. -/
def endObject (input : Input) : Except Fault Input :=
  match skipBlank input with
  | [] => .error (.upon [] .endInObject)
  | .char '\x7d' :: rest => .ok rest
  | .char ',' :: rest => .error (.upon (.char ',' :: rest) .trailingComma)
  | rest => .error (.upon rest .trailingCharacters)

/-- Reads the items of a list with `item`, which gets their number in the list, and
folds them into a state. At most `fuel` items. -/
def foldItems {σ : Type} (item : Nat → σ → Input → Read σ) :
    Nat → Nat → σ → Input → Read σ
  | 0, _, state, input => .ok (state, input)
  | fuel + 1, i, state, input =>
    match nextItem (i == 0) input with
    | .error fault => .error fault
    | .ok (false, rest) => .ok (state, rest)
    | .ok (true, rest) =>
      match item i state rest with
      | .error fault => .error (fault.within (.index i))
      | .ok (state, rest) => foldItems item fuel (i + 1) state rest

/-- Reads the members of an object with `member`, which gets the name and starts
before the colon, and folds them into a state. At most `fuel` members. -/
def foldMembers {σ : Type} (member : String → σ → Input → Read σ) :
    Nat → Bool → σ → Input → Read σ
  | 0, _, state, input => .ok (state, input)
  | fuel + 1, first, state, input =>
    match nextName first input with
    | .error fault => .error (fault.within .unknown)
    | .ok (false, rest) => .ok (state, rest)
    | .ok (true, rest) =>
      match readString (rest.drop 1) with
      | .error fault => .error (fault.within .unknown)
      | .ok (name, rest) =>
        match member name state rest with
        | .error fault => .error fault
        | .ok (state, rest) => foldMembers member fuel false state rest

/-! ### Values -/

/-- The first glyph of a number. -/
def startsNumber : Glyph → Bool
  | .char c => c == '-' || ('0' ≤ c && c ≤ '9')
  | .stray _ => false

def readSigned : Input → Read Number
  | .char '-' :: rest => readNumber true rest
  | input => readNumber false input

/-- A value with at most `depth` brackets open at once. `object` makes an object of
its members. -/
def readValueWith (object : List (String × Value) → Value) (depth : Nat) (input : Input) :
    Read Value :=
  match skipBlank input with
  | [] => .error (.upon [] .endInValue)
  | .char 'n' :: rest => (readWord ['u', 'l', 'l'] rest).map fun rest => (.null, rest)
  | .char 't' :: rest => (readWord ['r', 'u', 'e'] rest).map fun rest => (.bool true, rest)
  | .char 'f' :: rest => (readWord ['a', 'l', 's', 'e'] rest).map fun rest => (.bool false, rest)
  | .char '"' :: rest => (readString rest).map fun (s, rest) => (.str s, rest)
  | .char '[' :: rest =>
    match depth with
    | 0 => .error (.upon (.char '[' :: rest) .tooDeep)
    | depth + 1 =>
      let item := fun (_ : Nat) (items : List Value) input =>
        (readValueWith object depth input).map fun (value, rest) => (value :: items, rest)
      match foldItems item (rest.length + 1) 0 [] rest with
      | .error fault => .error fault
      | .ok (items, rest) => (endList rest).map fun rest => (.arr items.reverse, rest)
  | .char '\x7b' :: rest =>
    match depth with
    | 0 => .error (.upon (.char '\x7b' :: rest) .tooDeep)
    | depth + 1 =>
      let member := fun name (members : List (String × Value)) input =>
        let value : Read Value := match readColon input with
          | .error fault => .error fault
          | .ok input => readValueWith object depth input
        match value with
        | .error fault => .error (fault.within (.key name))
        | .ok (value, rest) => .ok ((name, value) :: members, rest)
      match foldMembers member (rest.length + 1) true [] rest with
      | .error fault => .error fault
      | .ok (members, rest) => (endObject rest).map fun rest => (object members.reverse, rest)
  | g :: rest =>
    if startsNumber g then (readSigned (g :: rest)).map fun (n, rest) => (.num n, rest)
    else .error (.upon (g :: rest) .expectedValue)

/-- A value whose objects are sorted and keep the last member of each name. -/
def readValue : Nat → Input → Read Value := readValueWith Value.ofMembers

/-- A value whose objects keep every member in the order written. -/
def readRaw : Nat → Input → Read Value := readValueWith Value.obj

/-! ### Passing over values -/

/-- A bracket that is open while a value is passed over. -/
inductive Bracket where
  | list
  | object
  deriving DecidableEq

mutual

/-- Passes over a value inside the given brackets, and over the rest of these. -/
def skipWithin : Nat → List Bracket → Input → Except Fault Input
  | 0, _, input => .error (.upon input .endInValue)
  | fuel + 1, open_, input =>
    match skipBlank input with
    | [] => .error (.upon [] .endInValue)
    | .char 'n' :: rest => (readWord ['u', 'l', 'l'] rest).bind (skipOn fuel true open_)
    | .char 't' :: rest => (readWord ['r', 'u', 'e'] rest).bind (skipOn fuel true open_)
    | .char 'f' :: rest => (readWord ['a', 'l', 's', 'e'] rest).bind (skipOn fuel true open_)
    | .char '"' :: rest => (skipString (rest.length + 1) rest).bind (skipOn fuel true open_)
    | .char '[' :: rest => skipOn fuel false (.list :: open_) rest
    | .char '\x7b' :: rest => skipOn fuel false (.object :: open_) rest
    | .char '-' :: rest => (skipNumber rest).bind (skipOn fuel true open_)
    | g :: rest =>
      if startsNumber g then (skipNumber (g :: rest)).bind (skipOn fuel true open_)
      else .error (.upon (g :: rest) .expectedValue)

/-- Passes over the rest of the open brackets. `comma` says whether a value was just
passed over, so that a comma may follow. -/
def skipOn : Nat → Bool → List Bracket → Input → Except Fault Input
  | 0, _, _, input => .error (.upon input .endInValue)
  | _ + 1, _, [], input => .ok input
  | fuel + 1, comma, .list :: outer, input =>
    match skipBlank input with
    | [] => .error (.upon [] .endInList)
    | .char ']' :: rest => skipOn fuel true outer rest
    | .char ',' :: rest =>
      if comma then skipWithin fuel (.list :: outer) rest
      else skipWithin fuel (.list :: outer) (.char ',' :: rest)
    | rest =>
      if comma then .error (.upon rest .expectedCommaOrBracket)
      else skipWithin fuel (.list :: outer) rest
  | fuel + 1, comma, .object :: outer, input =>
    match skipBlank input with
    | [] => .error (.upon [] .endInObject)
    | .char '\x7d' :: rest => skipOn fuel true outer rest
    | .char ',' :: rest =>
      if comma then skipMember fuel outer rest else skipMember fuel outer (.char ',' :: rest)
    | rest =>
      if comma then .error (.upon rest .expectedCommaOrBrace) else skipMember fuel outer rest

/-- Passes over a member of the innermost object and the rest of the open brackets. -/
def skipMember : Nat → List Bracket → Input → Except Fault Input
  | 0, _, input => .error (.upon input .endInValue)
  | fuel + 1, outer, input =>
    match skipBlank input with
    | [] => .error (.upon [] .endInObject)
    | .char '"' :: rest =>
      match skipString (rest.length + 1) rest with
      | .error fault => .error fault
      | .ok rest =>
        match readColon rest with
        | .error fault => .error fault
        | .ok rest => skipWithin fuel (.object :: outer) rest
    | rest => .error (.upon rest .keyNotString)

end

/-- Passes over one value of any depth. -/
def skipValue (input : Input) : Except Fault Input :=
  skipWithin (3 * input.length + 3) [] input

/-- Nothing but white space may follow. -/
def readEnd (input : Input) : Except Fault Unit :=
  match skipBlank input with
  | [] => .ok ()
  | rest => .error (.upon rest .trailingCharacters)

end Json
end DeviceRelay
