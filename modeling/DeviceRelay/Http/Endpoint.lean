/-
# The endpoints

A path serves the methods of its endpoints, and whoever may get it may also ask for
the head alone. Every endpoint but the health report and the metrics first asks who
is calling, and looks at nothing else until it knows. Then it reads what it is told,
asks the service for one thing and renders the answer.

Key definitions: `Endpoint`, `Endpoint.find`, `Rendering`, `Rendering.render`, `Plan`,
`Endpoint.plan`, `HttpRequest.plan`.
-/
import DeviceRelay.Http.Payload
import DeviceRelay.Http.Response
import DeviceRelay.Service

namespace DeviceRelay

/-- What can be asked for. -/
inductive Endpoint where
  | health
  | metrics
  | devices
  | owner
  | pair
  | poll
  | respond
  | unpair
  | writeRequest
  | writeResponse
  /-- The start of a session. -/
  | socket
  deriving DecidableEq, Repr

/-- The methods that are served. -/
inductive Method where
  | get
  | post
  deriving DecidableEq, Repr

namespace Endpoint

def routes (metricsEnabled : Bool) : List (String × List (Method × Endpoint)) :=
  [("/health", [(.get, .health)]),
    ("/devices", [(.get, .devices)]),
    ("/devices/me/owner", [(.get, .owner)]),
    ("/devices/pair", [(.post, .pair)]),
    ("/devices/pair/requests", [(.get, .poll), (.post, .respond)]),
    ("/devices/unpair", [(.post, .unpair)]),
    ("/storage/write/request", [(.post, .writeRequest)]),
    ("/storage/write/response", [(.post, .writeResponse)]),
    ("/storage/ws", [(.get, .socket)])] ++
  if metricsEnabled then [("/metrics", [(.get, .metrics)])] else []

/-- The names of a method and of what else it serves. -/
def Method.names : Method → List String
  | .get => ["GET", "HEAD"]
  | .post => ["POST"]

/-- The endpoint for a method and a path, or the response if there is none. -/
def find (metricsEnabled : Bool) (method path : String) : Except HttpResponse Endpoint :=
  match (routes metricsEnabled).lookup path with
  | none => .error { status := 404 }
  | some served =>
    match served.find? fun (m, _) => method ∈ Method.names m with
    | some (_, endpoint) => .ok endpoint
    | none =>
      let names := served.flatMap fun (m, _) => Method.names m
      .error { status := 405, allow := some (String.intercalate "," names) }

end Endpoint

/-! ### Rendering answers -/

/-- How the answer to a call is rendered. -/
inductive Rendering where
  | pair
  | poll
  | respond
  | devices
  | owner
  | unpair
  /-- The correlation text was made by the server, which tells it. -/
  | writeRequest (correlationId : String)
  | writeResponse
  deriving DecidableEq, Repr

/-- A pairing request as it is shown to its parties. -/
def Sighting.json (x : Sighting) : Json.Value :=
  .ofMembers [("request_id", .str x.request.id.simple), ("requester", x.request.requester.json),
    ("created_at", .num (.int x.request.createdAt)), ("state", .str x.state.name)]

namespace Rendering

/-- The response to a call that was answered. -/
def renderAnswer : Rendering → Answer → HttpResponse
  | .pair, .outcome o =>
    match o.state with
    | .accepted => .success .pairAccepted "pair request accepted" (some o.json)
    | _ => .success .pairRejected "pair request rejected" (some o.json)
  | .poll, .requests rs =>
    .success .success "ok" (some (.ofMembers [("pair_requests", .arr (rs.map (·.json)))]))
  | .respond, .request r => .success .updated "updated" (some r.json)
  | .devices, .devices ps =>
    .success .success "ok" (some (.ofMembers [("devices", .arr (ps.map (·.json)))]))
  | .owner, .owner p =>
    .success .success "ok" (some (.ofMembers [("owner", (p.map (·.json)).getD .null)]))
  | .unpair, _ => .success .updated "unpaired" none
  | .writeRequest id, _ =>
    .success .success "enqueued" (some (.ofMembers [("request_uuid", .str id)]))
  | .writeResponse, _ => .success .success "enqueued" none
  | _, _ => .success .success "ok" none

/-- The response to a call that ended. -/
def render (rendering : Rendering) : Ending → HttpResponse
  | .answered a => rendering.renderAnswer a
  | .failed e => .ofError e
  | .brokenOff => .ofError .cancelled

end Rendering

/-! ### From a request to a call -/

/-- The identifiers that a server draws for one request. -/
structure Draw where
  requestId : RequestId
  correlationId : String

/-- What a request leads to. -/
inductive Plan where
  | answer (r : HttpResponse)
  | call (call : Call) (rendering : Rendering)

namespace Plan

/-- The plan, or the error as a response. -/
def ofExcept : Except Error Plan → Plan
  | .ok plan => plan
  | .error e => .answer (.ofError e)

end Plan

/-- The response to a request for a session that is no WebSocket handshake. -/
def noUpgrade (r : HttpRequest) : HttpResponse :=
  let refusal := fun status body =>
    { status, contentType := some "text/plain; charset=utf-8", body : HttpResponse }
  if r.method = "GET" then refusal 400 "Connection header did not include 'upgrade'"
  else refusal 405 "Request method must be `GET`"

/-- The principal who makes a request. -/
def Service.caller (s : Service) (r : HttpRequest) : Except Error Principal :=
  match r.bearerToken? with
  | some token => s.directory.authenticate token
  | none => .error .unauthorized

/-- The report on the health of a service. -/
def Service.health (s : Service) : Health :=
  ⟨"ok", version, s.metrics.activeSessions, s.pairing.liveCount, 0⟩

namespace Endpoint

/-- What a known caller's request leads to. -/
def planFor (endpoint : Endpoint) (caller : Principal) (r : HttpRequest) (draw : Draw) :
    Except Error Plan :=
  match endpoint with
  | .pair => do
    let payload ← Payload.read PairPayload.decoder r
    let device ← payload.device
    return .call (.pair draw.requestId caller device) .pair
  | .poll => do
    let seconds ← pollSeconds r.query
    return .call (.poll caller (seconds.map (· * 1000))) .poll
  | .respond => do
    let payload ← Payload.read RespondPayload.decoder r
    return .call (.respond caller payload.request payload.accept) .respond
  | .devices => return .call (.devices caller) .devices
  | .owner => return .call (.owner caller) .owner
  | .unpair => do
    let payload ← Payload.read UnpairPayload.decoder r
    return .call (.unpair caller payload.device) .unpair
  | .writeRequest => do
    let payload ← Payload.read WriteRequestPayload.decoder r
    return .call (.publish caller payload.target .request draw.correlationId payload.data)
      (.writeRequest draw.correlationId)
  | .writeResponse => do
    let payload ← Payload.read WriteResponsePayload.decoder r
    return .call (.publish caller payload.target .response payload.answers payload.data)
      .writeResponse
  | .socket | .health | .metrics => return .answer (noUpgrade r)

/-- What a request to an endpoint leads to. -/
def plan (endpoint : Endpoint) (s : Service) (r : HttpRequest) (draw : Draw) : Plan :=
  match endpoint with
  | .health =>
    .answer { status := 200, contentType := some HttpResponse.jsonType, body := s.health.text }
  | .metrics =>
    .answer {
      status := 200
      contentType := some "text/plain; version=0.0.4; charset=utf-8"
      body := s.metrics.report s.pairing.liveCount s.limits.senderCount }
  | endpoint =>
    match s.caller r with
    | .error e => .answer (.ofError e)
    | .ok caller => .ofExcept (endpoint.planFor caller r draw)

end Endpoint

/-- What a request leads to. -/
def HttpRequest.plan (r : HttpRequest) (s : Service) (draw : Draw) : Plan :=
  match Endpoint.find s.config.server.metricsEnabled r.method r.path with
  | .error response => .answer response
  | .ok endpoint => endpoint.plan s r draw

/-- The response as the method asks for it. -/
def HttpRequest.fit (method : String) (response : HttpResponse) : HttpResponse :=
  if method = "HEAD" then response.withoutBody else response

end DeviceRelay
