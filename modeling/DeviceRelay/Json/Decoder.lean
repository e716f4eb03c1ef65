/-
# Values of a known form

A decoder reads one form of value, straight from text or from a value that had to
be read before its form was known. A record is an object, whose unknown members
are passed over, or a list of its fields in order. What a record finds wrong with
itself, a missing, repeated or surplus part, is a fault placed where the reading of
the record ends.

Key definitions: `Json.Decoder`, `Json.Field`, `Json.Decoder.record`,
`Json.Decoder.tagged`, `Json.Decoder.decode`, `Json.Decoder.decodeFront`.
-/
import DeviceRelay.Json.Reader

namespace DeviceRelay
namespace Json

/-- What a value is, in the words of a fault. -/
def Value.found : Value → Found
  | .null => .null
  | .bool b => .bool b
  | .num n => .number n
  | .str s => .string s
  | .arr _ => .sequence
  | .obj _ => .map

mutual

/-- A value with every object sorted and without repeated names. -/
def Value.sorted : Value → Value
  | .null => .null
  | .bool b => .bool b
  | .num n => .num n
  | .str s => .str s
  | .arr items => .arr (sortedItems items)
  | .obj members => Value.ofMembers (sortedMembers members)

def Value.sortedItems : List Value → List Value
  | [] => []
  | item :: rest => item.sorted :: sortedItems rest

def Value.sortedMembers : List (String × Value) → List (String × Value)
  | [] => []
  | (name, value) :: rest => (name, value.sorted) :: sortedMembers rest

end

/-- Reads values of one form. -/
structure Decoder (α : Type) where
  /-- From text, with at most so many brackets open at once. -/
  read : Nat → Input → Read α
  /-- From a value that was read before. -/
  ofValue : Value → Except Cause α

/-- The fault of text that starts a value of another form. A value that is no list or
object is read first. -/
def refuse (expected : String) (input : Input) : Fault :=
  let mismatch := fun found rest => Fault.after rest (.wrongType found expected)
  match input with
  | [] => .upon [] .endInValue
  | .char 'n' :: rest =>
    match readWord ['u', 'l', 'l'] rest with
    | .error fault => fault
    | .ok rest => mismatch .null rest
  | .char 't' :: rest =>
    match readWord ['r', 'u', 'e'] rest with
    | .error fault => fault
    | .ok rest => mismatch (.bool true) rest
  | .char 'f' :: rest =>
    match readWord ['a', 'l', 's', 'e'] rest with
    | .error fault => fault
    | .ok rest => mismatch (.bool false) rest
  | .char '"' :: rest =>
    match readString rest with
    | .error fault => fault
    | .ok (s, rest) => mismatch (.string s) rest
  | .char '[' :: rest => mismatch .sequence (.char '[' :: rest)
  | .char '\x7b' :: rest => mismatch .map (.char '\x7b' :: rest)
  | g :: rest =>
    if startsNumber g then
      match readSigned (g :: rest) with
      | .error fault => fault
      | .ok (n, rest) => mismatch (.number n) rest
    else .upon (g :: rest) .expectedValue

namespace Decoder

variable {α β σ : Type}

/-- A decoder followed by a check, whose refusal is placed by the value around it. -/
def refine (d : Decoder α) (check : α → Except Cause β) : Decoder β where
  read depth input :=
    match d.read depth input with
    | .error fault => .error fault
    | .ok (a, rest) =>
      match check a with
      | .error cause => .error (.floating rest cause)
      | .ok b => .ok (b, rest)
  ofValue value := d.ofValue value >>= check

/-- A decoder followed by a function. -/
def map (d : Decoder α) (f : α → β) : Decoder β := d.refine fun a => .ok (f a)

/-! ### Plain values -/

/-- A whole number from `low` to `high`. -/
def checkInt (expected : String) (low high : Int) : Number → Except Cause Int
  | .int n => if low ≤ n ∧ n ≤ high then .ok n else .error (.wrongValue (.number (.int n)) expected)
  | .double x => .error (.wrongType (.number (.double x)) expected)

/-- Whole numbers from `low` to `high`. -/
def integer (expected : String) (low high : Int) : Decoder Int where
  read _ input :=
    let input := skipBlank input
    if input.head?.any startsNumber then
      match readSigned input with
      | .error fault => .error fault
      | .ok (n, rest) =>
        match checkInt expected low high n with
        | .error cause => .error (.after rest cause)
        | .ok n => .ok (n, rest)
    else .error (refuse expected input)
  ofValue
    | .num n => checkInt expected low high n
    | value => .error (.wrongType value.found expected)

/-- Natural numbers below `2 ^ 64`. -/
def word : Decoder Nat := (integer "u64" 0 (twoTo 64 - 1)).map Int.toNat

/-- Natural numbers below `2 ^ 16`. -/
def shortWord : Decoder Nat := (integer "u16" 0 (twoTo 16 - 1)).map Int.toNat

def signedWord : Decoder Int := integer "i64" (-(twoTo 63)) (twoTo 63 - 1)

def text : Decoder String where
  read _ input :=
    match skipBlank input with
    | .char '"' :: rest => readString rest
    | input => .error (refuse "a string" input)
  ofValue
    | .str s => .ok s
    | value => .error (.wrongType value.found "a string")

def bool : Decoder Bool where
  read _ input :=
    match skipBlank input with
    | .char 't' :: rest => (readWord ['r', 'u', 'e'] rest).map fun rest => (true, rest)
    | .char 'f' :: rest => (readWord ['a', 'l', 's', 'e'] rest).map fun rest => (false, rest)
    | input => .error (refuse "a boolean" input)
  ofValue
    | .bool b => .ok b
    | value => .error (.wrongType value.found "a boolean")

/-- The null value, and from a value also the empty object. -/
def unit : Decoder Unit where
  read _ input :=
    match skipBlank input with
    | .char 'n' :: rest => (readWord ['u', 'l', 'l'] rest).map fun rest => ((), rest)
    | input => .error (refuse "unit" input)
  ofValue
    | .null | .obj [] => .ok ()
    | value => .error (.wrongType value.found "unit")

def value : Decoder Value where
  read := readValue
  ofValue value := .ok value.sorted

/-- Any value, with every member of its objects kept as written. -/
def raw : Decoder Value where
  read := readRaw
  ofValue := .ok

def optional (d : Decoder α) : Decoder (Option α) where
  read depth input :=
    match skipBlank input with
    | .char 'n' :: rest => (readWord ['u', 'l', 'l'] rest).map fun rest => (none, rest)
    | input => (d.read depth input).map fun (a, rest) => (some a, rest)
  ofValue
    | .null => .ok none
    | value => (d.ofValue value).map some

/-! ### Names for alternatives -/

def pick (known : List (String × α)) (name : String) : Except Cause α :=
  match known.lookup name with
  | some a => .ok a
  | none => .error (.unknownVariant name (known.map (·.1)))

/-- A name in a place where an alternative is named. -/
def readVariantName (known : List (String × α)) (input : Input) :
    Except Fault ((String × α) × Input) :=
  match skipBlank input with
  | .char '"' :: rest =>
    match readString rest with
    | .error fault => .error fault
    | .ok (name, rest) =>
      match pick known name with
      | .error cause => .error (.after rest cause)
      | .ok a => .ok ((name, a), rest)
  | input => .error (refuse "variant identifier" input)

/-- An object whose one member names an alternative and is null, after its brace. -/
def readVariantObject (known : List (String × α)) (depth : Nat) (input : Input) : Read α :=
  match readVariantName known input with
  | .error fault => .error fault
  | .ok ((name, a), rest) =>
    match readColon rest with
    | .error fault => .error fault
    | .ok rest =>
      match unit.read depth rest with
      | .error fault => .error (fault.within (.key name))
      | .ok (_, rest) =>
        match skipBlank rest with
        | [] => .error (.after [] .endInObject)
        | .char '\x7d' :: rest => .ok (a, rest)
        | rest => .error (.after rest .expectedValue)

/-- The name of an alternative, or an object whose one member has that name and is null. -/
def choice (known : List (String × α)) : Decoder α where
  read depth input :=
    match skipBlank input with
    | [] => .error (.upon [] .endInValue)
    | .char '"' :: rest =>
      (readVariantName known (.char '"' :: rest)).map fun (named, rest) => (named.2, rest)
    | .char '\x7b' :: rest =>
      match depth with
      | 0 => .error (.upon (.char '\x7b' :: rest) .tooDeep)
      | depth + 1 => readVariantObject known depth rest
    | rest => .error (.upon rest .expectedValue)
  ofValue
    | .str name => pick known name
    | .obj [(name, content)] => do
      let a ← pick known name
      unit.ofValue content
      return a
    | .obj _ => .error (.wrongValue .map "map with a single key")
    | value => .error (.wrongType value.found "string or map")

/-! ### Records -/

/-- Where the reading of a list stands once its reader gave up at `rest`. -/
def listEnd (rest : Input) : Input :=
  match skipBlank rest with
  | .char ']' :: rest => rest
  | .char ',' :: rest => skipBlank rest
  | rest => rest

/-- Where the reading of an object stands once its reader gave up at `rest`. -/
def objectEnd (rest : Input) : Input :=
  match skipBlank rest with
  | .char '\x7d' :: rest => rest
  | rest => rest

/-- Closes what was read inside a bracket. A fault without a place gets the one where
the closing stands. -/
def close (endsAt : Input → Input) (readClose : Input → Except Fault Input) : Read α → Read α
  | .ok (a, rest) => (readClose rest).map fun rest => (a, rest)
  | .error fault =>
    match fault.spot with
    | .before _ => .error fault
    | .pending rest => .error { fault with spot := .before (byteCount (endsAt rest)) }

end Decoder

/-- A field of a record that is gathered in a `σ`. -/
structure Field (σ : Type) where
  name : String
  /-- Whether the field was read. -/
  isSet : σ → Bool
  read : σ → Nat → Input → Read σ
  ofValue : σ → Value → Except Cause σ
  /-- Whether a list of the fields may end before this one. -/
  mayBeLeftOut : Bool

/-- The field `name` read by `d` and kept by `put`. -/
def Field.of {σ β : Type} (name : String) (d : Decoder β) (get : σ → Option β)
    (put : σ → β → σ) (mayBeLeftOut : Bool) : Field σ where
  name := name
  isSet state := (get state).isSome
  read state depth input := (d.read depth input).map fun (b, rest) => (put state b, rest)
  ofValue state value := (d.ofValue value).map (put state)
  mayBeLeftOut := mayBeLeftOut

/-- A field that must have been read. -/
def require {β : Type} (name : String) : Option β → Except Cause β
  | some b => .ok b
  | none => .error (.missingField name)

namespace Decoder

variable {α β σ : Type}

def elements (n : Nat) : String := if n = 1 then "1 element" else s!"{n} elements"

/-- A record, in the words of a fault about its length. -/
def recordLength (name : String) (fields : List (Field σ)) : String :=
  s!"struct {name} with {elements fields.length}"

/-- The fields of a record from the items of a list, from the `i`-th on. -/
def readInOrder (length : String) (depth : Nat) :
    List (Field σ) → Nat → σ → Input → Read σ
  | [], _, state, input => .ok (state, input)
  | field :: fields, i, state, input =>
    match nextItem (i == 0) input with
    | .error fault => .error fault
    | .ok (false, rest) =>
      if field.mayBeLeftOut then readInOrder length depth fields i state rest
      else .error (.floating rest (.wrongLength i length))
    | .ok (true, rest) =>
      match field.read state depth rest with
      | .error fault => .error (fault.within (.index i))
      | .ok (state, rest) => readInOrder length depth fields (i + 1) state rest

/-- A member of a record, from its colon on. -/
def readMember (fields : List (Field σ)) (depth : Nat) (name : String) (state : σ) (input : Input) :
    Read σ :=
  let within : Read σ → Read σ := Except.mapError (Fault.within (.key name))
  match fields.find? (·.name == name) with
  | some field =>
    if field.isSet state then .error (.floating input (.duplicateField name))
    else
      within <| match readColon input with
        | .error fault => .error fault
        | .ok rest => field.read state depth rest
  | none =>
    within <| match readColon input with
      | .error fault => .error fault
      | .ok rest => (skipValue rest).map fun rest => (state, rest)

/-- The fields of a record from a list of values, from the `i`-th on. -/
def takeInOrder (length : String) (total count : Nat) :
    List (Field σ) → Nat → σ → List Value → Except Cause (σ × List Value)
  | [], _, state, items => .ok (state, items)
  | field :: fields, i, state, [] =>
    if field.mayBeLeftOut then takeInOrder length total count fields i state []
    else .error (.wrongLength i length)
  | field :: fields, i, state, item :: items => do
    let state ← field.ofValue state item
    takeInOrder length total count fields (i + 1) state items

/-- The fields of a record from the members of an object. -/
def takeMembers (fields : List (Field σ)) : σ → List (String × Value) → Except Cause σ
  | state, [] => .ok state
  | state, (name, value) :: rest =>
    match fields.find? (·.name == name) with
    | some field =>
      if field.isSet state then .error (.duplicateField name)
      else do
        let state ← field.ofValue state value
        takeMembers fields state rest
    | none => takeMembers fields state rest

/-- The record `name` with the given fields. `finish` makes it from what was read. -/
def record (name : String) (fields : List (Field σ)) (blank : σ)
    (finish : σ → Except Cause α) : Decoder α where
  read depth input :=
    let finishAt : Read σ → Read α := fun gathered =>
      match gathered with
      | .error fault => .error fault
      | .ok (state, rest) =>
        match finish state with
        | .error cause => .error (.floating rest cause)
        | .ok a => .ok (a, rest)
    match skipBlank input with
    | .char '[' :: rest =>
      match depth with
      | 0 => .error (.upon (.char '[' :: rest) .tooDeep)
      | depth + 1 =>
        close listEnd endList
          (finishAt (readInOrder (recordLength name fields) depth fields 0 blank rest))
    | .char '\x7b' :: rest =>
      match depth with
      | 0 => .error (.upon (.char '\x7b' :: rest) .tooDeep)
      | depth + 1 =>
        close objectEnd endObject
          (finishAt (foldMembers (readMember fields depth) (rest.length + 1) true blank rest))
    | input => .error (refuse ("struct " ++ name) input)
  ofValue
    | .obj members => takeMembers fields blank members >>= finish
    | .arr items => do
      let (state, rest) ← takeInOrder (recordLength name fields) items.length fields.length
        fields 0 blank items
      let a ← finish state
      if rest.isEmpty then return a
      else .error (.wrongLength items.length (elements fields.length ++ " in sequence"))
    | value => .error (.wrongType value.found ("struct " ++ name))

/-! ### A tag beside its content -/

/-- What was read of a value whose form depends on a tag. -/
structure Tagged (α : Type) where
  /-- How to read the content, once the tag was read. -/
  form : Option (Decoder α)
  /-- The content, if it came before the tag. -/
  held : Option Value
  /-- The content in its form. -/
  content : Option α

/-- A member of a tagged value, from its colon on. -/
def readTagged (tag content : String) (forms : List (String × Decoder α)) (depth : Nat)
    (name : String) (state : Tagged α) (input : Input) : Read (Tagged α) :=
  let within : Read (Tagged α) → Read (Tagged α) := Except.mapError (Fault.within (.key name))
  let duplicate : Read (Tagged α) := .error (.floating input (.duplicateField name))
  if name = tag then
    if state.form.isSome then duplicate
    else
      within <| match readColon input with
        | .error fault => .error fault
        | .ok rest =>
          match (choice forms).read depth rest with
          | .error fault => .error fault
          | .ok (form, rest) =>
            match state.held with
            | none => .ok (⟨some form, none, none⟩, rest)
            | some held =>
              match form.ofValue held with
              | .error cause => .error (.floating rest cause)
              | .ok a => .ok (⟨some form, none, some a⟩, rest)
  else if name = content then
    if state.held.isSome || state.content.isSome then duplicate
    else
      within <| match readColon input with
        | .error fault => .error fault
        | .ok rest =>
          match state.form with
          | some form =>
            (form.read depth rest).map fun (a, rest) => (⟨some form, none, some a⟩, rest)
          | none => (readRaw depth rest).map fun (held, rest) => (⟨none, some held, none⟩, rest)
  else
    within <| match readColon input with
      | .error fault => .error fault
      | .ok rest => (skipValue rest).map fun rest => (state, rest)

/-- A tagged value once all members were read. -/
def finishTagged (tag content : String) (state : Tagged α) : Except Cause α :=
  match state.form with
  | none => .error (.missingField tag)
  | some _ => require content state.content

/-- A tag and its content as the two items of a list. -/
def readTaggedList (expected : String) (forms : List (String × Decoder α)) (depth : Nat)
    (input : Input) : Read α :=
  match nextItem true input with
  | .error fault => .error fault
  | .ok (false, rest) => .error (.floating rest (.wrongLength 0 expected))
  | .ok (true, rest) =>
    match (choice forms).read depth rest with
    | .error fault => .error (fault.within (.index 0))
    | .ok (form, rest) =>
      match nextItem false rest with
      | .error fault => .error fault
      | .ok (false, rest) => .error (.floating rest (.wrongLength 1 expected))
      | .ok (true, rest) => Except.mapError (Fault.within (.index 1)) (form.read depth rest)

/-- A value whose member `tag` names the form of its member `content`, read from text. -/
def tagged (name tag content : String) (forms : List (String × Decoder α))
    (depth : Nat) (input : Input) : Read α :=
  let expected := "adjacently tagged enum " ++ name
  match skipBlank input with
  | .char '[' :: rest =>
    match depth with
    | 0 => .error (.upon (.char '[' :: rest) .tooDeep)
    | depth + 1 => close listEnd endList (readTaggedList expected forms depth rest)
  | .char '\x7b' :: rest =>
    match depth with
    | 0 => .error (.upon (.char '\x7b' :: rest) .tooDeep)
    | depth + 1 =>
      let gathered := foldMembers (readTagged tag content forms depth) (rest.length + 1) true
        ⟨none, none, none⟩ rest
      close objectEnd endObject <| match gathered with
        | .error fault => .error fault
        | .ok (state, rest) =>
          match finishTagged tag content state with
          | .error cause => .error (.floating rest cause)
          | .ok a => .ok (a, rest)
  | input => .error (refuse expected input)

end Decoder

/-! ### Whole texts -/

/-- Reads a text that holds one value and nothing else. -/
def decodeWith {α : Type} (read : Nat → Input → Read α) (input : Input) : Except Report α :=
  match read depthLimit input with
  | .error fault => .error (fault.report input)
  | .ok (a, rest) =>
    match readEnd rest with
    | .error fault => .error (fault.report input)
    | .ok _ => .ok a

/-- Reads the value a text starts with. -/
def decodeFrontWith {α : Type} (read : Nat → Input → Read α) (input : Input) : Except Report α :=
  match read depthLimit input with
  | .error fault => .error (fault.report input)
  | .ok (a, _) => .ok a

def parse (input : Input) : Except Report Value := decodeWith readValue input

end Json
end DeviceRelay
