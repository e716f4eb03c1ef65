/-
# What is wrong with a JSON text, and where

A fault names its cause, the way down to the part that caused it, and its place.
Most faults are placed where they are found. One that a record raises about
itself, such as a missing field, is placed where the reading of that record
ends, so until then it carries the text that is left. A place is kept as the
number of bytes that follow it; with the whole text at hand that is a line and a
column, the column counting bytes.

Key definitions: `Json.Cause`, `Json.Fault`, `Json.Report`, `Json.Fault.report`.
-/
import DeviceRelay.Json.Printer
import DeviceRelay.Text.Utf8
import DeviceRelay.Text.Quoted

namespace DeviceRelay
namespace Json

abbrev Input := List Glyph

def byteCount (input : Input) : Nat := input.foldl (fun n glyph => n + glyph.width) 0

/-- What stood where something else was expected. -/
inductive Found where
  | null
  | bool (b : Bool)
  | number (n : Number)
  | string (s : String)
  | sequence
  | map

def Found.text : Found → String
  | .null => "null"
  | .bool b => s!"boolean `{b}`"
  | .number (.int n) => s!"integer `{n}`"
  | .number (.double x) => "floating point `" ++ String.ofList (floatLayout.text x) ++ "`"
  | .string s => "string " ++ Text.quoted s
  | .sequence => "sequence"
  | .map => "map"

/-- What kind of fault a cause is. -/
inductive Category where
  /-- The text is no JSON. -/
  | malformed
  /-- The text ends too early. -/
  | unfinished
  /-- The text is JSON, but not of the expected form. -/
  | unsuitable
  deriving DecidableEq, Repr

/-- Why a text could not be read. -/
inductive Cause where
  | endInValue
  | endInString
  | endInList
  | endInObject
  | expectedValue
  | expectedIdentifier
  | expectedColon
  | expectedCommaOrBracket
  | expectedCommaOrBrace
  | keyNotString
  | trailingComma
  | trailingCharacters
  | invalidNumber
  | numberOutOfRange
  | invalidEscape
  | controlCharacter
  | loneSurrogate
  | unfinishedSurrogate
  | invalidText
  | tooDeep
  | wrongType (found : Found) (expected : String)
  | wrongValue (found : Found) (expected : String)
  | wrongLength (length : Nat) (expected : String)
  | missingField (name : String)
  | duplicateField (name : String)
  | unknownVariant (name : String) (known : List String)
  | refused (reason : String)

/-- Names in backquotes, as a list of what is accepted. -/
def oneOf : List String → String
  | [] => "there are no variants"
  | [a] => s!"expected `{a}`"
  | [a, b] => s!"expected `{a}` or `{b}`"
  | names => "expected one of " ++ String.intercalate ", " (names.map fun n => s!"`{n}`")

namespace Cause

def category : Cause → Category
  | .endInValue | .endInString | .endInList | .endInObject => .unfinished
  | .wrongType .. | .wrongValue .. | .wrongLength .. | .missingField _ | .duplicateField _
  | .unknownVariant .. | .refused _ => .unsuitable
  | _ => .malformed

def message : Cause → String
  | .endInValue => "EOF while parsing a value"
  | .endInString => "EOF while parsing a string"
  | .endInList => "EOF while parsing a list"
  | .endInObject => "EOF while parsing an object"
  | .expectedValue => "expected value"
  | .expectedIdentifier => "expected ident"
  | .expectedColon => "expected `:`"
  | .expectedCommaOrBracket => "expected `,` or `]`"
  | .expectedCommaOrBrace => "expected `,` or `\x7d`"
  | .keyNotString => "key must be a string"
  | .trailingComma => "trailing comma"
  | .trailingCharacters => "trailing characters"
  | .invalidNumber => "invalid number"
  | .numberOutOfRange => "number out of range"
  | .invalidEscape => "invalid escape"
  | .controlCharacter => "control character (\\u0000-\\u001F) found while parsing a string"
  | .loneSurrogate => "lone leading surrogate in hex escape"
  | .unfinishedSurrogate => "unexpected end of hex escape"
  | .invalidText => "invalid unicode code point"
  | .tooDeep => "recursion limit exceeded"
  | .wrongType found expected => s!"invalid type: {found.text}, expected {expected}"
  | .wrongValue found expected => s!"invalid value: {found.text}, expected {expected}"
  | .wrongLength length expected => s!"invalid length {length}, expected {expected}"
  | .missingField name => s!"missing field `{name}`"
  | .duplicateField name => s!"duplicate field `{name}`"
  | .unknownVariant name known => s!"unknown variant `{name}`, {oneOf known}"
  | .refused reason => reason

end Cause

/-- A step down into a value. -/
inductive Segment where
  | key (name : String)
  | index (i : Nat)
  /-- A member whose name was not read. -/
  | unknown
  deriving DecidableEq, Repr

/-- A way down, as it is reported. -/
def pathText : List Segment → String
  | [] => ""
  | .key name :: rest => name ++ restText rest
  | .index i :: rest => s!"[{i}]" ++ restText rest
  | .unknown :: rest => "?" ++ restText rest
where
  /-- The steps after the first. -/
  restText : List Segment → String
    | [] => ""
    | .key name :: rest => "." ++ name ++ restText rest
    | .index i :: rest => s!"[{i}]" ++ restText rest
    | .unknown :: rest => ".?" ++ restText rest

/-- Where a fault is placed. -/
inductive Spot where
  /-- Before the last so many bytes. -/
  | before (bytes : Nat)
  /-- Where the reading of the value ends that this text is left of. -/
  | pending (rest : Input)

/-- A fault met while reading. -/
structure Fault where
  cause : Cause
  spot : Spot
  path : List Segment

namespace Fault

/-- A fault in the character at the front of `rest`. -/
def upon (rest : Input) (cause : Cause) : Fault := ⟨cause, .before (byteCount rest - 1), []⟩

/-- A fault in what was read before `rest`. -/
def after (rest : Input) (cause : Cause) : Fault := ⟨cause, .before (byteCount rest), []⟩

/-- A fault whose place the value around it decides. -/
def floating (rest : Input) (cause : Cause) : Fault := ⟨cause, .pending rest, []⟩

/-- The fault seen from one step further out. -/
def within (segment : Segment) (fault : Fault) : Fault :=
  { fault with path := segment :: fault.path }

/-- Places a fault that has no place yet behind what was read before `rest`. -/
def settle (fault : Fault) : Fault :=
  match fault.spot with
  | .before _ => fault
  | .pending rest => { fault with spot := .before (byteCount rest) }

end Fault

/-- A fault with its line and column, if it has a place. -/
structure Report where
  cause : Cause
  path : List Segment
  position : Option (Nat × Nat)

namespace Report

def message (report : Report) : String :=
  match report.position with
  | none => report.cause.message
  | some (line, column) => s!"{report.cause.message} at line {line} column {column}"

/-- The message with the way down to the fault in front. -/
def messageWithPath (report : Report) : String :=
  if report.path.all (· == .unknown) then report.message
  else pathText report.path ++ ": " ++ report.message

end Report

/-- The line, from one, and the bytes since it began, after the given bytes. -/
def positionAfter (bytes : List UInt8) : Nat × Nat :=
  (1 + bytes.count 0x0A, (bytes.reverse.takeWhile (· ≠ 0x0A)).length)

/-- The fault with its position in the whole text. -/
def Fault.report (whole : Input) (fault : Fault) : Report :=
  { cause := fault.cause
    path := fault.path
    position :=
      match fault.spot with
      | .pending _ => none
      | .before left =>
        some (positionAfter ((whole.flatMap Glyph.bytes).take (byteCount whole - left))) }

end Json
end DeviceRelay
