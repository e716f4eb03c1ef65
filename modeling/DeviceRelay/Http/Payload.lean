/-
# What the endpoints are told

A body is JSON in the form of its endpoint, of at most two megabytes; what follows
the JSON value does not matter. A poll has a number of seconds in its query. What is
wrong with either is reported in the words of its kind.

Key definitions: `Payload.bodyLimit`, `Payload.read`, `PairPayload`, `RespondPayload`, `UnpairPayload`,
`WriteRequestPayload`, `WriteResponsePayload`, `pollSeconds`.
-/
import DeviceRelay.DeviceRef
import DeviceRelay.Http.Request
import DeviceRelay.RequestId

namespace DeviceRelay

open Json (Decoder Value)

namespace Payload

/-- The words for a fault in a body. -/
def faultText (report : Json.Report) : String :=
  match report.cause.category with
  | .unsuitable =>
    "Failed to deserialize the JSON body into the target type: " ++ report.messageWithPath
  | .malformed | .unfinished =>
    "Failed to parse the request body as JSON: " ++ report.messageWithPath

/-- How many bytes of a body are taken. -/
def bodyLimit : Nat := 2 * 1024 * 1024

/-- The payload in the body of a request. -/
def read {α : Type} (decoder : Decoder α) (r : HttpRequest) : Except Error α :=
  if !r.isJson then
    .error (.malformedMessage "Expected request with `Content-Type: application/json`")
  else if bodyLimit < r.body.length then
    .error (.malformedMessage "Failed to buffer the request body: length limit exceeded")
  else
    match Json.decodeFrontWith decoder.read (Utf8.glyphs r.body) with
    | .ok a => .ok a
    | .error report => .error (.malformedMessage (faultText report))

end Payload

/-! ### Bodies -/

/-- A request to own a device names the device. -/
structure PairPayload where
  deviceId : Option PrincipalId
  deviceUsername : Option String

namespace PairPayload

structure Draft where
  deviceId : Option (Option PrincipalId)
  deviceUsername : Option (Option String)

def fields : List (Json.Field Draft) :=
  [.of "device_id" (.optional PrincipalId.decoder) (·.deviceId)
      (fun s x => { s with deviceId := some x }) false,
    .of "device_username" (.optional .text) (·.deviceUsername)
      (fun s x => { s with deviceUsername := some x }) false]

def decoder : Decoder PairPayload :=
  .record "PairPayload" fields ⟨none, none⟩ fun s =>
    .ok ⟨s.deviceId.getD none, s.deviceUsername.getD none⟩

/-- The device that is named. A number goes before a username. -/
def device (p : PairPayload) : Except Error DeviceRef :=
  match p.deviceId, p.deviceUsername with
  | some id, _ => .ok (.number id)
  | none, some name => .ok (.username name)
  | none, none => .error (.malformedMessage "device_id or device_username is required")

end PairPayload

/-- The answer of a device to a request. -/
structure RespondPayload where
  request : RequestId
  accept : Bool

namespace RespondPayload

def actions : List (String × Bool) := [("accept", true), ("reject", false)]

structure Draft where
  request : Option RequestId
  accept : Option Bool

def fields : List (Json.Field Draft) :=
  [.of "request_uuid" RequestId.decoder (·.request) (fun s x => { s with request := some x }) false,
    .of "action" (.choice actions) (·.accept) (fun s x => { s with accept := some x }) false]

def decoder : Decoder RespondPayload :=
  .record "RespondPayload" fields ⟨none, none⟩ fun s => do
    let request ← Json.require "request_uuid" s.request
    let accept ← Json.require "action" s.accept
    return ⟨request, accept⟩

end RespondPayload

/-- The device whose pairing is to end. -/
structure UnpairPayload where
  device : PrincipalId

namespace UnpairPayload

def fields : List (Json.Field (Option PrincipalId)) :=
  [.of "device_id" PrincipalId.decoder id (fun _ x => some x) false]

def decoder : Decoder UnpairPayload :=
  .record "UnpairPayload" fields none fun s => do
    let device ← Json.require "device_id" s
    return ⟨device⟩

end UnpairPayload

/-- A message that asks. -/
structure WriteRequestPayload where
  target : PrincipalId
  data : Value

namespace WriteRequestPayload

structure Draft where
  target : Option PrincipalId
  data : Option Value

def fields : List (Json.Field Draft) :=
  [.of "target_user_id" PrincipalId.decoder (·.target)
      (fun s x => { s with target := some x }) false,
    .of "data" .value (·.data) (fun s x => { s with data := some x }) true]

def decoder : Decoder WriteRequestPayload :=
  .record "WriteRequestPayload" fields ⟨none, none⟩ fun s => do
    let target ← Json.require "target_user_id" s.target
    return ⟨target, s.data.getD .null⟩

end WriteRequestPayload

/-- A message that answers another. -/
structure WriteResponsePayload where
  target : PrincipalId
  /-- The correlation text of the message that is answered. -/
  answers : String
  data : Value

namespace WriteResponsePayload

structure Draft where
  target : Option PrincipalId
  answers : Option String
  data : Option Value

def fields : List (Json.Field Draft) :=
  [.of "target_user_id" PrincipalId.decoder (·.target)
      (fun s x => { s with target := some x }) false,
    .of "response_to_request_uuid" .text (·.answers)
      (fun s x => { s with answers := some x }) false,
    .of "data" .value (·.data) (fun s x => { s with data := some x }) true]

def decoder : Decoder WriteResponsePayload :=
  .record "WriteResponsePayload" fields ⟨none, none, none⟩ fun s => do
    let target ← Json.require "target_user_id" s.target
    let answers ← Json.require "response_to_request_uuid" s.answers
    return ⟨target, answers, s.data.getD .null⟩

end WriteResponsePayload

/-! ### The query of a poll -/

/-- Why a text is no number of 64 bits. -/
inductive NumberFlaw where
  | empty
  | notDigit
  | tooLarge
  deriving DecidableEq, Repr

def NumberFlaw.message : NumberFlaw → String
  | .empty => "cannot parse integer from empty string"
  | .notDigit => "invalid digit found in string"
  | .tooLarge => "number too large to fit in target type"

def appendDigit (n : Nat) (c : Char) : Except NumberFlaw Nat :=
  if c.isDigit then
    let next := n * 10 + (c.toNat - '0'.toNat)
    if next < twoTo 64 then .ok next else .error .tooLarge
  else .error .notDigit

/-- The number of 64 bits that a text stands for. A plus sign may precede it. -/
def wordOfText (text : String) : Except NumberFlaw Nat :=
  match text.toList with
  | [] => .error .empty
  | ['+'] => .error .notDigit
  | '+' :: digits => digits.foldlM appendDigit 0
  | digits => digits.foldlM appendDigit 0

/-- The seconds that a poll waits, if its query tells. -/
def pollSeconds (query : String) : Except Error (Option Nat) :=
  let refuse := fun reason =>
    Error.malformedMessage ("Failed to deserialize query string: " ++ reason)
  (Query.pairs query).foldlM
    (fun found (name, value) =>
      if name ≠ "timeout_secs" then .ok found
      else if found.isSome then .error (refuse "duplicate field `timeout_secs`")
      else
        match wordOfText value with
        | .ok n => .ok (some n)
        | .error flaw => .error (refuse flaw.message))
    none

end DeviceRelay
