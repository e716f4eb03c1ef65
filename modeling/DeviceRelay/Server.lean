/-
# The server and its runs

A server runs calls, made directly or over HTTP, and sessions over a service. What
goes on by itself are tasks: a call, a timer, the recording of a pairing, the
forwarder of a session, and a session. In a run their steps come in any order, and
between them calls begin and are dropped, peers act, the stores change their
behaviour, cells come back to the rate limits, and time passes. The schedule first serves those who wait for messages
in the order of their line, and then the oldest task that can run.

Key definitions: `Task`, `Action`, `Event`, `Server`, `Server.step`, `Server.machine`.
-/
import DeviceRelay.Http.Endpoint
import DeviceRelay.Session

namespace DeviceRelay

/-- What goes on by itself. -/
inductive Task where
  | call (label : String)
  | background (b : Background)
  | forward (session : String)
  | session (name : String)
  deriving DecidableEq, Repr

/-- For whom a call is made. -/
inductive Origin where
  | direct
  /-- For a request with a method, whose answer is to be rendered. -/
  | http (method : String) (rendering : Rendering)

/-- A call that did not end yet. -/
structure Running where
  label : String
  origin : Origin
  phase : Phase

/-- What can happen to a server. -/
inductive Action where
  /-- A call begins. -/
  | call (label : String) (call : Call)
  /-- A request arrives, for which the server draws identifiers. -/
  | http (label : String) (r : HttpRequest) (draw : Draw)
  /-- A session begins. -/
  | openSession (name : String) (p : Principal) (connection : Connection)
  /-- A handshake arrives that asks for a session. -/
  | handshake (name : String) (r : HttpRequest)
  /-- A task makes a step. -/
  | run (task : Task)
  /-- A session that waits takes something up. -/
  | choose (session : String) (choice : Choice)
  /-- The peer of a session does something. -/
  | peer (session : String) (event : PeerEvent)
  /-- A call is dropped. -/
  | dropCall (label : String)
  /-- A session is dropped. -/
  | dropSession (name : String)
  | shutDown
  /-- The store of pairings changes its behaviour. -/
  | setStore (delay : Nat) (fault : Option StoreFault)
  /-- The queues change their behaviour. -/
  | setQueues (fault : Option StorageError)
  /-- A pairing is made by other means. -/
  | link (user device : PrincipalId)
  /-- Bytes are put into a queue by other means. -/
  | pushRaw (recipient : PrincipalId) (bytes : List UInt8)
  /-- Cells come back to the rate limits. -/
  | refill (common : Nat) (own : PrincipalId → Nat)
  /-- Time passes. -/
  | tick (moment : Nat)

/-- What is seen of it. -/
inductive Event where
  | returned (label : String) (ending : Ending)
  | responded (label : String) (response : HttpResponse)
  /-- A handshake was accepted or refused. -/
  | shaken (name : String) (refusal : Option HttpResponse)
  | sessionEnded (name : String) (result : Except TransportError Unit)
  | linked (result : Except Error Unit)
  | stored (recipient : PrincipalId) (length : Nat)

/-- A service, the calls that did not end yet, all sessions in the order in which they
began, the tasks from the oldest to the latest, and the identifiers that were drawn. -/
structure Server where
  service : Service
  calls : List Running := []
  sessions : List Session := []
  tasks : List Task := []
  drawn : List RequestId := []

namespace Server

def ofConfig (config : Config) (epoch : Int) : Except ConfigError Server :=
  match Directory.ofEntries config.principals with
  | .error e => .error e
  | .ok directory => (Service.ofConfig config directory epoch).map fun service => { service }

def call? (s : Server) (label : String) : Option Running := s.calls.find? (·.label = label)

def session? (s : Server) (name : String) : Option Session := s.sessions.find? (·.name = name)

/-- The server with another state of a session. -/
def setSession (s : Server) (x : Session) : Server :=
  { s with sessions := s.sessions.map fun other => if other.name = x.name then x else other }

def endTask (s : Server) (task : Task) : Server := { s with tasks := s.tasks.filter (· ≠ task) }

/-- Forgets the tasks of a session. -/
def endSessionTasks (s : Server) (name : String) : Server :=
  (s.endTask (.forward name)).endTask (.session name)

/-! ### Calls -/

/-- What is seen of the end of a call. -/
def endEvent (label : String) (ending : Ending) : Origin → Event
  | .direct => .returned label ending
  | .http method rendering => .responded label (HttpRequest.fit method (rendering.render ending))

def runCall? (s : Server) (label : String) : Option (Server × List Event) := do
  let c ← s.call? label
  let move ← s.service.step? (.call label) c.phase
  let started := move.started.toList.map Task.background
  let moved : Server := { s with service := move.service, tasks := s.tasks ++ started }
  match move.progress with
  | .goesOn phase =>
    let calls := s.calls.map fun (other : Running) =>
      if other.label = label then { other with phase } else other
    return ({ moved with calls }, [])
  | .ends ending =>
    let calls := s.calls.filter (·.label ≠ label)
    return ({ moved with calls }.endTask (.call label), [endEvent label ending c.origin])

/-- Begins a call under a new label. An identifier that it brings must be new, too. -/
def beginCall? (s : Server) (label : String) (origin : Origin) (call : Call) : Option Server :=
  let ids := match call with
    | .pair id _ _ => [id]
    | _ => []
  if (s.call? label).isSome ∨ ids.any (· ∈ s.drawn) then none
  else
    some { s with
      calls := s.calls ++ [⟨label, origin, .begins call⟩]
      tasks := s.tasks ++ [.call label]
      drawn := ids ++ s.drawn }

/-- Takes a request up: it is answered at once or becomes a call. -/
def beginHttp? (s : Server) (label : String) (r : HttpRequest) (draw : Draw) :
    Option (Server × List Event) :=
  match r.plan s.service draw with
  | .answer response => some (s, [.responded label (HttpRequest.fit r.method response)])
  | .call call rendering =>
    (s.beginCall? label (.http r.method rendering) call).map fun s => (s, [])

/-! ### Sessions -/

/-- Begins a session under a new name. -/
def openSession? (s : Server) (name : String) (p : Principal) (connection : Connection) :
    Option Server :=
  if (s.session? name).isSome then none
  else
    some { s with
      service := Session.countStart s.service
      sessions := s.sessions ++ [{ name, principal := p, connection }]
      tasks := s.tasks ++ [.forward name, .session name] }

/-- Takes up a handshake: its caller gets a session over a new WebSocket. -/
def shake? (s : Server) (name : String) (r : HttpRequest) : Option (Server × List Event) :=
  match s.service.caller r with
  | .error e => some (s, [.shaken name (some (.ofError e))])
  | .ok p =>
    (s.openSession? name p (.webSocket {})).map fun s => (s, [.shaken name none])

/-- The server after a step of a session, with its end if it ended. -/
def after (s : Server) (stepped : Service × Session) : Server × List Event :=
  let (service, x) := stepped
  let s := { s with service }.setSession x
  match x.phase with
  | .ended result => (s.endSessionTasks x.name, [.sessionEnded x.name result])
  | _ => (s, [])

/-- A step of the forwarder of a session. -/
def runForward? (s : Server) (name : String) : Option (Server × List Event) := do
  let x ← s.session? name
  let stepped ← x.forward? s.service
  return s.after stepped

/-- A step of a session that took something up. -/
def runSession? (s : Server) (name : String) : Option (Server × List Event) := do
  let x ← s.session? name
  let stepped ← x.proceed? s.service
  return s.after stepped

/-- A session that waits takes something up. -/
def choose? (s : Server) (name : String) (choice : Choice) : Option (Server × List Event) := do
  let x ← s.session? name
  let stepped ← x.choose? s.service choice
  return s.after stepped

/-! ### Steps -/

def runTask? (s : Server) : Task → Option (Server × List Event)
  | .call label => s.runCall? label
  | .background b =>
    (s.service.runBackground? b).map fun service => ({ s with service }.endTask (.background b), [])
  | .forward name => s.runForward? name
  | .session name => s.runSession? name

/-- The server with another state of its service. -/
def withService (s : Server) (f : Service → Service) : Server := { s with service := f s.service }

/-- What an action does, if it is possible. -/
def step (s : Server) : Action → Option (Server × List Event)
  | .call label call => (s.beginCall? label .direct call).map fun s => (s, [])
  | .http label r draw => s.beginHttp? label r draw
  | .openSession name p connection => (s.openSession? name p connection).map fun s => (s, [])
  | .handshake name r => s.shake? name r
  | .run task => s.runTask? task
  | .choose name choice => s.choose? name choice
  | .peer name event =>
    (s.session? name).map fun x =>
      (s.setSession { x with connection := x.connection.onPeer event }, [])
  | .dropCall label =>
    let calls := s.calls.filter (·.label ≠ label)
    let service := s.service.abandon (.call label)
    some ({ s with calls, service }.endTask (.call label), [])
  | .dropSession name =>
    (s.session? name).map fun x =>
      let (service, x) := x.drop s.service
      (({ s with service }.setSession x).endSessionTasks name, [])
  | .shutDown => some (s.withService fun v => { v with pairing := v.pairing.shutDown }, [])
  | .setStore delay fault =>
    some (s.withService fun v => { v with store := { v.store with delay, fault } }, [])
  | .setQueues fault =>
    some (s.withService fun v => { v with relay := { v.relay with fault } }, [])
  | .link user device =>
    match s.service.store.edges.create? user device with
    | some edges =>
      some (s.withService fun v => { v with store := { v.store with edges } }, [.linked (.ok ())])
    | none => some (s, [.linked (.error (.alreadyPaired device))])
  | .pushRaw recipient bytes =>
    let (relay, length) := s.service.relay.pushRaw recipient bytes
    some (s.withService fun v => { v with relay }, [.stored recipient length])
  | .refill common own =>
    some (s.withService fun v => { v with limits := v.limits.refill common own }, [])
  | .tick moment =>
    if s.service.clock.now ≤ moment then
      some (s.withService fun v => { v with clock := { v.clock with now := moment } }, [])
    else none

/-- The frames that peers received since an earlier state of the server, by session in
the order in which the sessions began, without those that received nothing. -/
def sentSince (s earlier : Server) : List (String × List SocketFrame) :=
  let sent := s.sessions.map fun x =>
    let old := (earlier.session? x.name).map (·.connection.sent.length)
    (x.name, x.connection.sent.drop (old.getD 0))
  sent.filter (·.2 ≠ [])

/-! ### The schedule -/

/-- The actions of a task, the preferred first. -/
def actionsOf : Task → List Action
  | .session name =>
    [.run (.session name), .choose name .gone, .choose name .receive, .choose name .relay]
  | task => [.run task]

/-- The task of one who waits for messages. -/
def taskOf : Party → Task
  | .call label => .call label
  | .session name => .forward name

/-- The action that comes next: the one next in line for messages goes on, or else the
oldest task that can. -/
def ready? (s : Server) : Option Action :=
  let inLine := (s.service.relay.ready? s.service.clock.now).toList.map taskOf
  ((inLine ++ s.tasks).flatMap actionsOf).find? fun a => (s.step a).isSome

def nextDue? (s : Server) : Option Nat :=
  (s.calls.filterMap (·.phase.due?) ++ s.service.nextDue?.toList).min?

/-- The runs of a server. -/
def machine : Machine Server Action Event where
  step := step
  ready := ready?
  nextDue := nextDue?
  wait := .tick

end Server
end DeviceRelay
