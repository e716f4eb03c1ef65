/-
# HTTP requests

The target of a request is a path and, after a question mark, a query; a fragment
does not count. The header that authorizes a request names a scheme and, after the
first space, a token, whose surrounding white space does not count. A query is a
list of pairs in which a plus sign stands for a space and a percent sign for a byte.

Key definitions: `HttpRequest`, `HttpRequest.path`, `HttpRequest.query`,
`HttpRequest.bearerToken?`, `HttpRequest.isJson`, `Query.pairs`.
-/
import DeviceRelay.Text.Blank
import DeviceRelay.Text.Hex
import DeviceRelay.Text.Utf8

namespace DeviceRelay

/-- A request. -/
structure HttpRequest where
  method : String
  target : String
  /-- The bytes of the header that authorizes the request. -/
  authorization : Option (List UInt8) := none
  /-- The type of the body, if it is told. -/
  contentType : Option (List UInt8) := none
  body : List UInt8 := []

/-! ### Queries -/

namespace Query

/-- The bytes of a part of a query. A percent sign without two digits stands for itself. -/
def bytes : List Char → List UInt8
  | [] => []
  | '+' :: rest => 0x20 :: bytes rest
  | '%' :: a :: b :: rest =>
    match Hex.value? a, Hex.value? b with
    | some high, some low => UInt8.ofNat (high * 16 + low) :: bytes rest
    | _, _ => 0x25 :: bytes (a :: b :: rest)
  | c :: rest => String.utf8EncodeChar c ++ bytes rest

/-- The text of a part of a query. Bytes that are no text are replaced. -/
def text (part : List Char) : String :=
  String.ofList ((Utf8.glyphs (bytes part)).map fun glyph => glyph.char?.getD '\uFFFD')

/-- The pairs of a query. A pair without an equals sign has an empty value. -/
def pairs (query : String) : List (String × String) :=
  let parts := (query.toList.splitOn '&').filter (· ≠ [])
  parts.map fun part =>
    (text (part.takeWhile (· ≠ '=')), text ((part.dropWhile (· ≠ '=')).drop 1))

end Query

namespace HttpRequest

/-- The target without its fragment. -/
def withoutFragment (r : HttpRequest) : List Char := r.target.toList.takeWhile (· ≠ '#')

/-- The path that is asked for. -/
def path (r : HttpRequest) : String := String.ofList (r.withoutFragment.takeWhile (· ≠ '?'))

/-- The query, empty if there is none. -/
def query (r : HttpRequest) : String :=
  String.ofList ((r.withoutFragment.dropWhile (· ≠ '?')).drop 1)

/-! ### Headers -/

/-- The text of a header, if it is all visible. -/
def headerText? (bytes : List UInt8) : Option (List Char) :=
  if bytes.all fun b => b == 0x09 || (0x20 ≤ b && b < 0x7F) then
    some (bytes.map fun b => Char.ofNat b.toNat)
  else none

/-- The token of a header that names the bearer scheme. -/
def bearer? (header : List Char) : Option String :=
  let scheme := header.takeWhile (· ≠ ' ')
  let token := Text.trim ((header.dropWhile (· ≠ ' ')).drop 1)
  if scheme.map Char.toLower = "bearer".toList ∧ token ≠ [] then some (String.ofList token)
  else none

/-- The token that a request presents. -/
def bearerToken? (r : HttpRequest) : Option String :=
  (r.authorization.bind headerText?).bind bearer?

/-! ### Content types -/

/-- Whether a character may stand in a token. -/
def isTokenChar (c : Char) : Bool := c.isAlphanum || "!#$%&'*+-.^_`|~".toList.contains c

/-- The text after a quoted parameter value, up to its semicolon. -/
def afterQuoted (text : List Char) : Option (List Char) :=
  let value := text.takeWhile (· ≠ '"')
  if value = [] ∨ !value.all fun c => 31 < c.toNat && c.toNat ≠ 127 then none
  else
    match text.dropWhile (· ≠ '"') with
    | [] => none
    | _ :: rest =>
      match rest.dropWhile (· = ' ') with
      | [] => some []
      | ';' :: rest => some rest
      | _ => none

/-- Whether a text is a list of parameters, each a name and a value. -/
def areParameters : Nat → List Char → Bool
  | _, [] => true
  | 0, _ => false
  | fuel + 1, ' ' :: rest => areParameters fuel rest
  | fuel + 1, text =>
    let name := text.takeWhile isTokenChar
    match text.dropWhile isTokenChar with
    | '=' :: '"' :: rest =>
      name ≠ [] && (afterQuoted rest).any (areParameters fuel)
    | '=' :: rest =>
      let value := rest.takeWhile isTokenChar
      match rest.dropWhile isTokenChar with
      | [] => name ≠ []
      | ';' :: rest => name ≠ [] && value ≠ [] && areParameters fuel rest
      | _ => false
    | _ => false

/-- Whether a subtype is that of JSON, alone, before its suffix or as its suffix. The
suffix is what follows the last plus sign, unless that comes first. -/
def isJsonSubtype (subtype : List Char) : Bool :=
  let json := "json".toList
  let suffix := (subtype.reverse.takeWhile (· ≠ '+')).reverse
  let front := subtype.take (subtype.length - suffix.length - 1)
  if front = [] then subtype = json else suffix = json || front = json

/-- Whether a content type is that of JSON. -/
def isJsonType (text : List Char) : Bool :=
  let front := text.takeWhile (· ≠ ';')
  let kind := (front.takeWhile (· ≠ '/')).map Char.toLower
  let subtype := ((front.dropWhile (· ≠ '/')).drop 1).map Char.toLower
  let parameters := (text.dropWhile (· ≠ ';')).drop 1
  kind = "application".toList && subtype ≠ [] && subtype.all isTokenChar &&
    isJsonSubtype subtype && areParameters (parameters.length + 1) parameters

/-- Whether the body is said to be JSON. -/
def isJson (r : HttpRequest) : Bool := ((r.contentType.bind headerText?).map isJsonType).getD false

end HttpRequest
end DeviceRelay
