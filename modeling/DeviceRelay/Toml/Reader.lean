/-
# Reading TOML

A document is a sequence of lines, each empty, a key with its value, or a header.
A reader takes the characters that are left and gives what it read with what is
left then, or nothing if the text is no TOML.

Key definitions: `Toml.readKey`, `Toml.readValue`, `Toml.parse?`.
-/
import DeviceRelay.Toml.Document
import DeviceRelay.Number.Double
import DeviceRelay.Text.Hex

namespace DeviceRelay
namespace Toml

/-- What was read, and the text that is left. -/
abbrev Rest (α : Type) := α × List Char

/-! ### Blanks, comments and line ends -/

/-- Whether `c` is a blank inside a line. -/
def isBlank (c : Char) : Bool := c == ' ' || c == '\t'

/-- The text after its leading blanks. -/
def skipBlank (input : List Char) : List Char := input.dropWhile isBlank

/-- Whether `c` may stand in a comment or a text, apart from quotes. -/
def isPlain (c : Char) : Bool := c == '\t' || (0x20 ≤ c.toNat && c.toNat != 0x7F)

/-- The text after a comment, if one starts here. -/
def skipComment : List Char → List Char
  | '#' :: rest => rest.dropWhile isPlain
  | input => input

def lineEnd? : List Char → Option (List Char)
  | '\n' :: rest => some rest
  | '\r' :: '\n' :: rest => some rest
  | _ => none

/-- The text after the rest of a line that holds nothing more. -/
def endLine? (input : List Char) : Option (List Char) :=
  match skipComment (skipBlank input) with
  | [] => some []
  | rest => lineEnd? rest

/-- The text after blanks, line ends and comments; at most `fuel` of them. -/
def skipSpace : Nat → List Char → List Char
  | 0, input => input
  | fuel + 1, input =>
    match skipComment (skipBlank input) with
    | [] => []
    | rest =>
      match lineEnd? rest with
      | some rest => skipSpace fuel rest
      | none => rest

/-! ### Texts -/

/-- The character with the code point written by `width` digits. -/
def readCodePoint (width : Nat) (input : List Char) : Option (Rest Char) :=
  let digits := input.take width
  if digits.length < width then none
  else do
    let n ← digits.foldlM (fun n c => (Hex.value? c).map (n * 16 + ·)) 0
    if n.isValidChar then some (Char.ofNat n, input.drop width) else none

/-- The character an escape stands for, after the backslash. -/
def readEscape : List Char → Option (Rest Char)
  | 'b' :: rest => some ('\x08', rest)
  | 't' :: rest => some ('\t', rest)
  | 'n' :: rest => some ('\n', rest)
  | 'f' :: rest => some ('\x0c', rest)
  | 'r' :: rest => some ('\r', rest)
  | '"' :: rest => some ('"', rest)
  | '\\' :: rest => some ('\\', rest)
  | 'u' :: rest => readCodePoint 4 rest
  | 'U' :: rest => readCodePoint 8 rest
  | _ => none

/-- A text in double quotes, after the first; at most `fuel` characters. -/
def readBasic : Nat → List Char → Option (Rest (List Char))
  | 0, _ => none
  | _, [] => none
  | _ + 1, '"' :: rest => some ([], rest)
  | fuel + 1, '\\' :: rest => do
    let (c, rest) ← readEscape rest
    let (more, rest) ← readBasic fuel rest
    return (c :: more, rest)
  | fuel + 1, c :: rest =>
    if isPlain c then do
      let (more, rest) ← readBasic fuel rest
      return (c :: more, rest)
    else none

/-- A text in single quotes, after the first. -/
def readLiteral : List Char → Option (Rest (List Char))
  | [] => none
  | '\'' :: rest => some ([], rest)
  | c :: rest =>
    if isPlain c then do
      let (more, rest) ← readLiteral rest
      return (c :: more, rest)
    else none

/-- The quotes a text over several lines ends with: three that close it, and before
these up to two of its own. -/
def readClosing (quote : Char) (input : List Char) : Option (Option (Rest (List Char))) :=
  let count := (input.takeWhile (· == quote)).length
  if count < 3 then none
  else
    let own := min (count - 3) 2
    some (some (List.replicate own quote, input.drop (own + 3)))

/-- The text after blanks and line ends; at most `fuel` of them. -/
def skipBlankLines : Nat → List Char → List Char
  | 0, input => input
  | fuel + 1, input =>
    match lineEnd? (skipBlank input) with
    | some rest => skipBlankLines fuel rest
    | none => skipBlank input

/-- A text over several lines in double quotes, after the first three; at most `fuel`
characters. -/
def readLongBasic : Nat → List Char → Option (Rest (List Char))
  | 0, _ => none
  | _, [] => none
  | fuel + 1, '\\' :: rest =>
    let trimmed := skipBlank rest
    match lineEnd? trimmed with
    | some after => readLongBasic fuel (skipBlankLines (after.length + 1) after)
    | none => do
      let (c, rest) ← readEscape rest
      let (more, rest) ← readLongBasic fuel rest
      return (c :: more, rest)
  | fuel + 1, c :: rest =>
    match (if c = '"' then readClosing '"' (c :: rest) else none) with
    | some closed => closed
    | none =>
      match lineEnd? (c :: rest) with
      | some rest => do
        let (more, rest) ← readLongBasic fuel rest
        return ('\n' :: more, rest)
      | none =>
        if isPlain c then do
          let (more, rest) ← readLongBasic fuel rest
          return (c :: more, rest)
        else none

/-- A text over several lines in single quotes, after the first three; at most `fuel`
characters. -/
def readLongLiteral : Nat → List Char → Option (Rest (List Char))
  | 0, _ => none
  | _, [] => none
  | fuel + 1, c :: rest =>
    match (if c = '\'' then readClosing '\'' (c :: rest) else none) with
    | some closed => closed
    | none =>
      match lineEnd? (c :: rest) with
      | some rest => do
        let (more, rest) ← readLongLiteral fuel rest
        return ('\n' :: more, rest)
      | none =>
        if isPlain c then do
          let (more, rest) ← readLongLiteral fuel rest
          return (c :: more, rest)
        else none

/-- The text after a line end, if one starts here. -/
def dropLineEnd (input : List Char) : List Char := (lineEnd? input).getD input

/-- A text of any of the four kinds. -/
def readText (input : List Char) : Option (Rest (List Char)) :=
  match input with
  | '"' :: '"' :: '"' :: rest => readLongBasic (rest.length + 1) (dropLineEnd rest)
  | '\'' :: '\'' :: '\'' :: rest => readLongLiteral (rest.length + 1) (dropLineEnd rest)
  | '"' :: rest => readBasic (rest.length + 1) rest
  | '\'' :: rest => readLiteral rest
  | _ => none

/-! ### Keys -/

/-- Whether `c` may stand in a key without quotes. -/
def isBare (c : Char) : Bool := c.isAlphanum || c == '_' || c == '-'

def readSimpleKey (input : List Char) : Option (Rest String) :=
  match input with
  | '"' :: rest => (readBasic (rest.length + 1) rest).map fun (s, rest) => (String.ofList s, rest)
  | '\'' :: rest => (readLiteral rest).map fun (s, rest) => (String.ofList s, rest)
  | _ =>
    let name := input.takeWhile isBare
    if name.isEmpty then none else some (String.ofList name, input.drop name.length)

/-- The parts of a key with dots, blanks around each; at most `fuel` parts. -/
def readKeyParts : Nat → List Char → Option (Rest (List String))
  | 0, _ => none
  | fuel + 1, input => do
    let (name, rest) ← readSimpleKey (skipBlank input)
    match skipBlank rest with
    | '.' :: rest => do
      let (more, rest) ← readKeyParts fuel rest
      return (name :: more, rest)
    | rest => return ([name], rest)

/-- How many brackets may be open, or parts be in a key. -/
def depthLimit : Nat := 79

/-- A key, as the way to it and its last part. -/
def readKey (input : List Char) : Option (Rest (List String × String)) := do
  let (parts, rest) ← readKeyParts depthLimit input
  let name ← parts.getLast?
  return ((parts.dropLast, name), rest)

/-! ### Numbers, dates and times -/

/-- Digits of one kind, single underscores between them. -/
def readGrouped (isDigit : Char → Bool) : Nat → List Char → Option (Rest (List Char))
  | 0, _ => none
  | fuel + 1, c :: rest =>
    if isDigit c then
      match rest with
      | '_' :: more => do
        let (digits, rest) ← readGrouped isDigit fuel more
        return (c :: digits, rest)
      | d :: _ =>
        if isDigit d then do
          let (digits, rest) ← readGrouped isDigit fuel rest
          return (c :: digits, rest)
        else some ([c], rest)
      | [] => some ([c], [])
    else none
  | _ + 1, [] => none

/-- Decimal digits with underscores. -/
def readDecimals (input : List Char) : Option (Rest (List Char)) :=
  readGrouped Char.isDigit (input.length + 1) input

/-- The number written by digits in a base. -/
def valueIn (base : Nat) (digits : List Char) : Nat :=
  digits.foldl (fun n c => n * base + (Hex.value? c).getD 0) 0

/-- A number in another base, after its mark. -/
def readInBase (base : Nat) (input : List Char) : Option (Rest Value) := do
  let isDigit := fun c => (Hex.value? c).any (· < base)
  let (digits, rest) ← readGrouped isDigit (input.length + 1) input
  let n := valueIn base digits
  if n < twoTo 63 then some (.int n, rest) else none

/-- A sign, `true` if it is negative. -/
def readSign : List Char → Bool × List Char
  | '+' :: rest => (false, rest)
  | '-' :: rest => (true, rest)
  | input => (false, input)

/-- The digits before the point of a number: no zero in front of others. -/
def readWhole (input : List Char) : Option (Rest (List Char)) :=
  match input with
  | '0' :: rest =>
    match rest with
    | c :: _ => if c.isDigit || c == '_' then none else some (['0'], rest)
    | [] => some (['0'], [])
  | _ => readDecimals input

def readFraction : List Char → Option (Option (Rest (List Char)))
  | '.' :: rest => some (readDecimals rest)
  | _ => none

def readExponent : List Char → Option (Option (Rest Int))
  | 'e' :: rest | 'E' :: rest =>
    let (negative, rest) := readSign rest
    some ((readDecimals rest).map fun (digits, rest) =>
      let n := valueIn 10 (digits.take 9)
      (if negative then -(n : Int) else n, rest))
  | _ => none

/-- Whether a number is beyond the largest double. -/
def isHuge (digits : List Char) (exponent : Int) : Bool :=
  let n := valueIn 10 digits
  if n = 0 then false
  else if exponent < -(digits.length : Int) then false
  else if 400 < exponent then true
  else
    let x := if 0 ≤ exponent then Double.ofRatio false (n * tenTo exponent.natAbs) 1
      else Double.ofRatio false n (tenTo exponent.natAbs)
    !x.isFinite

/-- A decimal number: whole, or with a fraction or an exponent. -/
def readDecimal (input : List Char) : Option (Rest Value) := do
  let (negative, unsigned) := readSign input
  match unsigned with
  | 'i' :: 'n' :: 'f' :: rest | 'n' :: 'a' :: 'n' :: rest => some (.float, rest)
  | _ =>
    let (whole, rest) ← readWhole unsigned
    let (fraction, rest) ← (readFraction rest).getD (some ([], rest))
    let float := fun (exponent : Int) (rest : List Char) =>
      if negative = false ∧ isHuge (whole ++ fraction) (exponent - fraction.length) then none
      else some (Value.float, rest)
    match readExponent rest with
    | some read => do
      let (exponent, rest) ← read
      float exponent rest
    | none =>
      if fraction.isEmpty then
        let n := valueIn 10 whole
        if negative then
          if n ≤ twoTo 63 then some (.int (-(n : Int)), rest) else none
        else if n < twoTo 63 then some (.int n, rest) else none
      else float 0 rest

def readFixed (width : Nat) (input : List Char) : Option (Rest Nat) :=
  let digits := input.take width
  if digits.length = width ∧ digits.all Char.isDigit then
    some (valueIn 10 digits, input.drop width)
  else none

/-- A number of two digits from `low` to `high`. -/
def readTwo (low high : Nat) (input : List Char) : Option (Rest Nat) := do
  let (n, rest) ← readFixed 2 input
  if low ≤ n ∧ n ≤ high then some (n, rest) else none

def daysIn (year month : Nat) : Nat :=
  if month = 2 then
    if year % 4 = 0 ∧ (year % 100 ≠ 0 ∨ year % 400 = 0) then 29 else 28
  else if month ∈ [4, 6, 9, 11] then 30
  else 31

/-- What may follow the start of a date or time: nothing of the kind, or the rest of
it, which may be wrong. -/
inductive Started where
  | no
  | yes (rest : Option (List Char))

/-- The minutes and seconds of a time, after the first colon. -/
def readClock (input : List Char) : Option (List Char) := do
  let (_, rest) ← readTwo 0 59 input
  match rest with
  | ':' :: rest => do
    let (_, rest) ← readTwo 0 60 rest
    match rest with
    | '.' :: fraction =>
      let digits := fraction.takeWhile Char.isDigit
      if digits.isEmpty then none else some (fraction.drop digits.length)
    | rest => some rest
  | _ => none

def readTime (input : List Char) : Started :=
  match readFixed 2 input with
  | some (hour, ':' :: rest) => .yes (if hour ≤ 23 then readClock rest else none)
  | _ => .no

/-- The offset of a time from the universal one, if there is one. -/
def readOffset : List Char → Option (List Char)
  | 'Z' :: rest | 'z' :: rest => some rest
  | '+' :: rest | '-' :: rest => do
    let (_, rest) ← readTwo 0 23 rest
    match rest with
    | ':' :: rest => (readTwo 0 59 rest).map (·.2)
    | _ => none
  | rest => some rest

/-- A date, and the time after it. -/
def readDate (input : List Char) : Started :=
  match readFixed 4 input with
  | some (year, '-' :: rest) =>
    .yes do
      let (month, rest) ← readTwo 1 12 rest
      match rest with
      | '-' :: rest => do
        let (_, rest) ← readTwo 1 (daysIn year month) rest
        match rest with
        | 'T' :: more | 't' :: more | ' ' :: more =>
          match readTime more with
          | .no => some rest
          | .yes after => do readOffset (← after)
        | _ => some rest
      | _ => none
  | _ => .no

def readNumeric (input : List Char) : Option (Rest Value) :=
  match readDate input with
  | .yes rest => rest.map fun rest => (.moment, rest)
  | .no =>
    match readTime input with
    | .yes rest => rest.map fun rest => (.moment, rest)
    | .no =>
      match input with
      | '0' :: 'x' :: rest => readInBase 16 rest
      | '0' :: 'o' :: rest => readInBase 8 rest
      | '0' :: 'b' :: rest => readInBase 2 rest
      | _ => readDecimal input

/-! ### Values -/

/-- The text after blanks, line ends and comments. -/
def skipLines (input : List Char) : List Char := skipSpace (input.length + 1) input

/-- The items of a list, after its bracket; at most `fuel` items. -/
def readItems (item : List Char → Option (Rest Value)) :
    Nat → List Char → Option (Rest (List Value))
  | 0, _ => none
  | fuel + 1, input =>
    match skipLines input with
    | ']' :: rest => some ([], rest)
    | rest => do
      let (v, rest) ← item rest
      match skipLines rest with
      | ',' :: rest => do
        let (more, rest) ← readItems item fuel rest
        return (v :: more, rest)
      | ']' :: rest => return ([v], rest)
      | _ => none

/-- The entries of a table in braces, from a key on; at most `fuel` entries. -/
def readEntries (item : List Char → Option (Rest Value)) :
    Nat → Entries → List Char → Option (Rest Entries)
  | 0, _, _ => none
  | fuel + 1, entries, input => do
    let ((path, name), rest) ← readKey input
    match rest with
    | '=' :: rest => do
      let (v, rest) ← item (skipBlank rest)
      let entries ← assign path name v entries
      match skipBlank rest with
      | ',' :: rest => readEntries item fuel entries rest
      | '\x7d' :: rest => return (entries, rest)
      | _ => none
    | _ => none

/-- A value with at most `depth` brackets open at once. -/
def readValue (depth : Nat) (input : List Char) : Option (Rest Value) :=
  match input with
  | '"' :: _ | '\'' :: _ => (readText input).map fun (s, rest) => (.text (String.ofList s), rest)
  | 't' :: 'r' :: 'u' :: 'e' :: rest => some (.bool true, rest)
  | 'f' :: 'a' :: 'l' :: 's' :: 'e' :: rest => some (.bool false, rest)
  | 'i' :: 'n' :: 'f' :: rest | 'n' :: 'a' :: 'n' :: rest => some (.float, rest)
  | '[' :: rest =>
    match depth with
    | 0 => none
    | depth + 1 =>
      (readItems (readValue depth) (rest.length + 1) rest).map fun (items, rest) =>
        (.list items, rest)
  | '\x7b' :: rest =>
    match depth with
    | 0 => none
    | depth + 1 =>
      match skipBlank rest with
      | '\x7d' :: rest => some (.table [], rest)
      | rest =>
        (readEntries (readValue depth) (rest.length + 1) [] rest).map fun (entries, rest) =>
          (.table (finishEntries entries), rest)
  | c :: _ => if c == '+' || c == '-' || c.isDigit then readNumeric input else none
  | [] => none

/-! ### Documents -/

/-- A document that is being read: its tree and the path of the last header. -/
structure State where
  root : Entries
  header : List String

/-- The document after a header, which starts after its bracket. -/
def readHeader (state : State) (input : List Char) : Option (Rest State) :=
  match input with
  | '[' :: rest => do
    let ((path, name), rest) ← readKey rest
    match rest with
    | ']' :: ']' :: rest => do
      let root ← openTables path name state.root
      return (⟨root, path ++ [name]⟩, rest)
    | _ => none
  | rest => do
    let ((path, name), rest) ← readKey rest
    match rest with
    | ']' :: rest => do
      let root ← openTable path name state.root
      return (⟨root, path ++ [name]⟩, rest)
    | _ => none

/-- The document after a key and its value. -/
def readAssignment (state : State) (input : List Char) : Option (Rest State) := do
  let ((path, name), rest) ← readKey input
  match rest with
  | '=' :: rest => do
    let (v, rest) ← readValue depthLimit (skipBlank rest)
    let root ← assignUnder state.header path name v state.root
    return (⟨root, state.header⟩, rest)
  | _ => none

/-- The document after at most `fuel` more lines. -/
def readLines : Nat → State → List Char → Option State
  | 0, _, _ => none
  | fuel + 1, state, input =>
    match skipBlank input with
    | [] => some state
    | '#' :: rest => do readLines fuel state (← endLine? ('#' :: rest))
    | '\n' :: rest => readLines fuel state rest
    | '\r' :: '\n' :: rest => readLines fuel state rest
    | '[' :: rest => do
      let (state, rest) ← readHeader state rest
      readLines fuel state (← endLine? rest)
    | rest => do
      let (state, rest) ← readAssignment state rest
      readLines fuel state (← endLine? rest)

/-- The document a text holds. A byte order mark in front is passed over. -/
def parse? (text : List Char) : Option Value :=
  let text := match text with
    | '\uFEFF' :: rest => rest
    | _ => text
  (readLines (text.length + 1) ⟨[], []⟩ text).map fun state => .table (finishEntries state.root)

end Toml
end DeviceRelay
