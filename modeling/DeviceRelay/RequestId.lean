/-
# Identifiers of pairing requests

An identifier is 128 bits, written as 32 hexadecimal digits in lower case. It is
read in that form, and with hyphens after 8, 12, 16 and 20 digits, alone, in
braces, or after `urn:uuid:` in any case. A text that is none of these is refused
for the first reason that applies: a character that is no digit, the length of a
text of digits, the number of groups, the length of a group.

Key definitions: `RequestId`, `RequestId.simple`, `RequestId.hyphenated`, `RequestId.parse`.
-/
import DeviceRelay.Text.Hex
import DeviceRelay.Text.Quoted
import DeviceRelay.Json.Decoder
import DeviceRelay.Error

namespace DeviceRelay

/-- The identifier of a pairing request. -/
structure RequestId where
  value : BitVec 128
  deriving DecidableEq, Repr, Inhabited

namespace RequestId

/-- The 32 digits of an identifier. -/
def digits (id : RequestId) : List Char := Hex.padded 32 id.value.toNat

/-- The identifier as it is written. -/
def simple (id : RequestId) : String := String.ofList id.digits

/-- The digits in five groups. -/
def hyphenated (id : RequestId) : String :=
  let d := id.digits
  String.ofList (d.take 8 ++ '-' :: ((d.drop 8).take 4 ++ '-' :: ((d.drop 12).take 4 ++
    '-' :: ((d.drop 16).take 4 ++ '-' :: d.drop 20))))

def description (id : RequestId) : String :=
  "RequestId(" ++ String.ofList (id.digits.take 8) ++ ")"

instance : ToString RequestId := ⟨simple⟩

/-- Why a text is no identifier. -/
inductive Flaw where
  | character (c : Char) (index : Nat)
  | length (found : Nat)
  | groupCount (found : Nat)
  | groupLength (group expected found : Nat)
  deriving DecidableEq, Repr

def Flaw.message : Flaw → String
  | .character c index => s!"invalid character: found `{c}` at {index}"
  | .length found => s!"invalid length: found {found}"
  | .groupCount found => s!"invalid group count: expected 5, found {found}"
  | .groupLength group expected found =>
    s!"invalid group length in group {group}: expected {expected}, found {found}"

/-- What stands around the groups of an identifier. -/
inductive Wrapping where
  | none
  | braces
  | urn
  deriving DecidableEq

/-- The letters before an identifier in its form as a name. -/
def urnPrefix : List Char := "urn:uuid:".toList

def unwrap (text : List Char) : Wrapping × List Char :=
  match text with
  | '\x7b' :: rest =>
    if rest.getLast? = some '\x7d' then (.braces, rest.dropLast) else (.none, text)
  | _ =>
    if (text.take 9).map Char.toLower = urnPrefix then (.urn, text.drop 9) else (.none, text)

/-- The number of bytes of a text. -/
def byteLength (text : List Char) : Nat := (String.ofList text).utf8ByteSize

/-- The number written by digits, `none` if one of them is no digit. -/
def valueOf? (digits : List Char) : Option Nat :=
  digits.foldlM (fun n c => (Hex.value? c).map (n * 16 + ·)) 0

/-- The digits of five groups of the right lengths. -/
def groups? (text : List Char) : Option (List Char) :=
  if text.length = 36 ∧ text[8]? = some '-' ∧ text[13]? = some '-' ∧ text[18]? = some '-' ∧
      text[23]? = some '-' then
    some (text.take 8 ++ (text.drop 9).take 4 ++ (text.drop 14).take 4 ++ (text.drop 19).take 4 ++
      text.drop 24)
  else none

/-- The first character that is neither a digit nor a hyphen, with its place in bytes. -/
def strange? : Nat → List Char → Option (Char × Nat)
  | _, [] => none
  | index, c :: rest =>
    if c = '-' ∨ (Hex.value? c).isSome then strange? (index + c.utf8Size) rest else some (c, index)

/-- The first of the first four groups, from the `i`-th on, that has a wrong length. -/
def wrongGroup? : Nat → List Nat → List (List Char) → Option Flaw
  | i, expected :: lengths, group :: rest =>
    if group.length = expected then wrongGroup? (i + 1) lengths rest
    else some (.groupLength i expected group.length)
  | _, _, _ => none

/-- Why a text that is no identifier is none. -/
def flaw (text : List Char) : Flaw :=
  let (wrapping, inner) := unwrap text
  let offset := match wrapping with | .none => 0 | .braces => 1 | .urn => 9
  match strange? offset inner with
  | some (c, index) => .character c index
  | none =>
    let hyphens := inner.count '-'
    if hyphens = 0 ∧ wrapping = .none ∧ byteLength text ≠ 36 then .length (byteLength text)
    else if hyphens ≠ 4 then .groupCount (hyphens + 1)
    else
      match wrongGroup? 0 [8, 4, 4, 4] (inner.splitOn '-') with
      | some flaw => flaw
      | none => .groupLength 4 12 (byteLength text - 24)

/-- The identifier a text stands for. -/
def parse (text : List Char) : Except Flaw RequestId :=
  let (wrapping, inner) := unwrap text
  let digits := if wrapping = .none ∧ inner.length = 32 then some inner else groups? inner
  match digits.bind valueOf? with
  | some n => .ok ⟨BitVec.ofNat 128 n⟩
  | none => .error (flaw text)

/-- The identifier a text stands for, or why it is refused. -/
def ofText (text : String) : Except WireError RequestId :=
  match parse text.toList with
  | .ok id => .ok id
  | .error flaw => .error (.invalidData s!"invalid request id {Text.quoted text}: {flaw.message}")

def decoder : Json.Decoder RequestId :=
  Json.Decoder.text.refine fun text => (ofText text).mapError fun e => .refused e.message

end RequestId
end DeviceRelay
