/-
# HTTP responses

Nearly every response is a reply as JSON, with the status that its code stands for.

Key definitions: `HttpResponse`, `HttpResponse.success`, `HttpResponse.ofError`.
-/
import DeviceRelay.Frame

namespace DeviceRelay

/-- A response. -/
structure HttpResponse where
  status : Nat
  contentType : Option String := none
  /-- The methods that a path allows, if another one was used. -/
  allow : Option String := none
  body : String := ""
  deriving DecidableEq, Repr

namespace HttpResponse

def jsonType : String := "application/json"

/-- A response of success. -/
def success (status : Status) (message : String) (data : Option Json.Value) : HttpResponse :=
  { status := status.http
    contentType := some jsonType
    body := (Reply.success status.code message data).text }

/-- The response that reports an error. -/
def ofError (e : Error) : HttpResponse :=
  { status := (Status.ofError e).http
    contentType := some jsonType
    body := (Reply.ofError e).text }

/-- The response to a request for the head alone. -/
def withoutBody (r : HttpResponse) : HttpResponse := { r with body := "" }

end HttpResponse
end DeviceRelay
