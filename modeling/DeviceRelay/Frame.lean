/-
# Frames of a session

A session receives requests to enqueue a message and sends data frames, which
deliver one, and responses. All are JSON texts. A request names its message by a
text that is not blank.

Key definitions: `Delivery`, `Reply`, `OutboundFrame`, `OutboundFrame.text`,
`OutboundFrame.parse`, `InboundRequest`, `InboundRequest.text`, `InboundRequest.parse`.
-/
import DeviceRelay.Json.Decoder
import DeviceRelay.Message
import DeviceRelay.Status
import DeviceRelay.Text.Blank

namespace DeviceRelay

open Json (Value Decoder Input)

def PrincipalId.decoder : Decoder PrincipalId := Decoder.word.map .ofNat

/-- What a data frame holds of a message. The recipient is the one of the session. -/
structure Delivery where
  kind : MessageKind
  correlationId : String
  sender : PrincipalId
  createdAt : Int
  data : Value
  deriving DecidableEq, Repr

/-- The outcome of a request. -/
structure Reply where
  ok : Bool
  code : Nat
  message : String
  data : Option Value
  deriving DecidableEq, Repr

/-- A frame sent to the peer of a session. -/
inductive OutboundFrame where
  | data (delivery : Delivery)
  | response (reply : Reply)
  deriving DecidableEq, Repr

namespace Delivery

def ofMessage (m : Message) : Delivery :=
  ⟨m.kind, m.correlationId, m.sender, m.createdAt, m.data⟩

def print (d : Delivery) : List Char :=
  Json.printFields [("data_type", Json.printString d.kind.name),
    ("request_uuid", Json.printString d.correlationId),
    ("sender_user_id", Json.print d.sender.json),
    ("created_at", Json.printInt d.createdAt), ("data", Json.print d.data)]

structure Draft where
  kind : Option MessageKind
  correlationId : Option String
  sender : Option PrincipalId
  createdAt : Option Int
  data : Option Value

def fields : List (Json.Field Draft) :=
  [.of "data_type" (.choice MessageKind.named) (·.kind)
      (fun s x => { s with kind := some x }) false,
    .of "request_uuid" .text (·.correlationId)
      (fun s x => { s with correlationId := some x }) false,
    .of "sender_user_id" PrincipalId.decoder (·.sender)
      (fun s x => { s with sender := some x }) false,
    .of "created_at" .signedWord (·.createdAt) (fun s x => { s with createdAt := some x }) false,
    .of "data" .value (·.data) (fun s x => { s with data := some x }) false]

def decoder : Decoder Delivery :=
  .record "DataFrame" fields ⟨none, none, none, none, none⟩ fun s => do
    let kind ← Json.require "data_type" s.kind
    let correlationId ← Json.require "request_uuid" s.correlationId
    let sender ← Json.require "sender_user_id" s.sender
    let createdAt ← Json.require "created_at" s.createdAt
    let data ← Json.require "data" s.data
    return ⟨kind, correlationId, sender, createdAt, data⟩

end Delivery

namespace Reply

def success (code : Nat) (message : String) (data : Option Value) : Reply :=
  ⟨true, code, message, data⟩

def failure (code : Nat) (message : String) : Reply := ⟨false, code, message, none⟩

/-- The reply that reports an error. -/
def ofError (e : Error) : Reply := failure (Status.ofError e).code (Status.messageFor e)

def print (r : Reply) : List Char :=
  Json.printFields [("ok", Json.print (.bool r.ok)),
    ("application_status_code", Json.print (.ofNat r.code)),
    ("message", Json.printString r.message), ("data", Json.print (r.data.getD .null))]

/-- A reply as JSON text. -/
def text (r : Reply) : String := String.ofList r.print

structure Draft where
  ok : Option Bool
  code : Option Nat
  message : Option String
  data : Option (Option Value)

def fields : List (Json.Field Draft) :=
  [.of "ok" .bool (·.ok) (fun s x => { s with ok := some x }) false,
    .of "application_status_code" .shortWord (·.code) (fun s x => { s with code := some x }) false,
    .of "message" .text (·.message) (fun s x => { s with message := some x }) false,
    .of "data" (.optional .value) (·.data) (fun s x => { s with data := some x }) true]

def decoder : Decoder Reply :=
  .record "ResponseFrame" fields ⟨none, none, none, none⟩ fun s => do
    let ok ← Json.require "ok" s.ok
    let code ← Json.require "application_status_code" s.code
    let message ← Json.require "message" s.message
    return ⟨ok, code, message, s.data.getD none⟩

end Reply

namespace OutboundFrame

def print : OutboundFrame → List Char
  | .data delivery =>
    Json.printFields [("msg_type", Json.printString "data"), ("data", delivery.print)]
  | .response reply =>
    Json.printFields [("msg_type", Json.printString "response"), ("data", reply.print)]

/-- A frame as JSON text. -/
def text (frame : OutboundFrame) : String := String.ofList frame.print

def forms : List (String × Decoder OutboundFrame) :=
  [("data", Delivery.decoder.map .data), ("response", Reply.decoder.map .response)]

/-- The frame of a text. -/
def parse (text : List Char) : Except WireError OutboundFrame :=
  (Json.decodeWith (Decoder.tagged "OutboundFrame" "msg_type" "data" forms)
    (Glyph.ofText text)).mapError .frame

end OutboundFrame

/-- What a request asks to enqueue. -/
inductive RequestType where
  | enqueueRequest
  | enqueueResponse
  deriving DecidableEq, Repr

namespace RequestType

def name : RequestType → String
  | .enqueueRequest => "enqueue_request"
  | .enqueueResponse => "enqueue_response"

def named : List (String × RequestType) :=
  [("enqueue_request", .enqueueRequest), ("enqueue_response", .enqueueResponse)]

def kind : RequestType → MessageKind
  | .enqueueRequest => .request
  | .enqueueResponse => .response

end RequestType

/-- A request received in a session. -/
structure InboundRequest where
  requestType : RequestType
  messageId : String
  target : PrincipalId
  data : Value
  deriving DecidableEq, Repr

namespace InboundRequest

def print (r : InboundRequest) : List Char :=
  Json.printFields [("request_type", Json.printString r.requestType.name),
    ("message_id", Json.printString r.messageId), ("target_user_id", Json.print r.target.json),
    ("data", Json.print r.data)]

/-- A request as JSON text. -/
def text (r : InboundRequest) : String := String.ofList r.print

structure Draft where
  requestType : Option RequestType
  messageId : Option String
  target : Option PrincipalId
  data : Option Value

def fields : List (Json.Field Draft) :=
  [.of "request_type" (.choice RequestType.named) (·.requestType)
      (fun s x => { s with requestType := some x }) false,
    .of "message_id" .text (·.messageId) (fun s x => { s with messageId := some x }) false,
    .of "target_user_id" PrincipalId.decoder (·.target)
      (fun s x => { s with target := some x }) false,
    .of "data" .value (·.data) (fun s x => { s with data := some x }) true]

def decoder : Decoder InboundRequest :=
  .record "InboundRequest" fields ⟨none, none, none, none⟩ fun s => do
    let requestType ← Json.require "request_type" s.requestType
    let messageId ← Json.require "message_id" s.messageId
    let target ← Json.require "target_user_id" s.target
    return ⟨requestType, messageId, target, s.data.getD .null⟩

/-- The request of a text. Its message must be named. -/
def parse (text : List Char) : Except WireError InboundRequest :=
  match Json.decodeWith decoder.read (Glyph.ofText text) with
  | .error report => .error (.frame report)
  | .ok request =>
    if Text.isAllBlank request.messageId.toList then
      .error (.invalidData "message_id must not be empty")
    else .ok request

end InboundRequest
end DeviceRelay
