/-
# A session hands messages over in three stages

A session joins a connection to the message queue of its principal. Its forwarder
pops a message only while the one slot towards the session is free, puts it there,
and waits until it is taken. The session itself chooses among what is ready, an
event of the peer, the message in the slot, or the end of the connection, and
answers or sends before it chooses again. So of the messages popped at most one
waits in the slot and at most one is being sent.

Key definitions: `Session`, `Forwarder`, `SessionPhase`, `Choice`,
`Session.forward?`, `Session.choose?`, `Session.proceed?`, `Session.drop`.
-/
import DeviceRelay.Frame
import DeviceRelay.Service.Steps
import DeviceRelay.Session.Connection

namespace DeviceRelay

/-- What the forwarder of a session does. -/
inductive Forwarder where
  /-- It waits for the slot to be free. -/
  | reserves
  /-- It holds the slot and consumes. -/
  | consumes
  | stopped
  deriving DecidableEq, Repr

/-- How far a session got. -/
inductive SessionPhase where
  /-- It waits for something to happen. -/
  | selects
  /-- It publishes a message of the peer, which named it so. -/
  | publishes (messageId : String) (phase : Phase)
  /-- It has a frame to send. -/
  | sends (frame : OutboundFrame)
  | ended (result : Except TransportError Unit)
  /-- It was dropped before its end. -/
  | dropped

/-- A connection, its principal, and what goes on between them. -/
structure Session where
  name : String
  principal : Principal
  connection : Connection
  forwarder : Forwarder := .reserves
  /-- The slot between the forwarder and the session. -/
  slot : Option Message := none
  phase : SessionPhase := .selects

/-- What a session that waits may take up. -/
inductive Choice where
  /-- The connection is no longer live. -/
  | gone
  | receive
  | relay
  deriving DecidableEq, Repr

namespace Session

def isRunning (x : Session) : Bool :=
  match x.phase with
  | .ended _ | .dropped => false
  | _ => true

def countStart (s : Service) : Service :=
  { s with
    metrics := { s.metrics with
      sessions := s.metrics.sessions + 1
      activeSessions := s.metrics.activeSessions + 1 } }

/-! ### The forwarder -/

/-- Lets the forwarder run, if it has something to do. -/
def forward? (s : Service) (x : Session) : Option (Service × Session) :=
  let party := Party.session x.name
  if !x.isRunning then none
  else
    match x.forwarder with
    | .reserves =>
      if x.slot.isSome then none
      else
        let timeout := s.config.relay.consumeTimeout * 1000
        let relay := s.relay.begin party x.principal.id timeout true
        some ({ s with relay }, { x with forwarder := .consumes })
    | .consumes =>
      (s.relay.run? s.clock.now party).map fun (relay, consumed?) =>
        let s := { s with relay }
        match consumed? with
        | none => (s, x)
        | some (.message m) => (s, { x with forwarder := .reserves, slot := some m })
        | some .nothing => (s, { x with forwarder := .reserves })
        | some _ => (s, { x with forwarder := .stopped })
    | .stopped => none

/-! ### The session itself -/

/-- Ends the session: its forwarder stops and the connection is closed. A failure is
counted. This is one step, although the closing of the connection is awaited before the
session is counted out: a drop in the midst of it is no state of its own here. -/
def finish (s : Service) (x : Session) (result : Except TransportError Unit) : Service × Session :=
  let failures := match result with | .ok () => 0 | .error _ => 1
  let metrics := { s.metrics with
    activeSessions := s.metrics.activeSessions - 1
    errors := s.metrics.errors + failures }
  ({ s with metrics, relay := s.relay.abandon (.session x.name) },
    { x with
      connection := x.connection.close closeNormal "session ended"
      forwarder := .stopped
      phase := .ended result })

def takeText (x : Session) (text : String) : Session :=
  match InboundRequest.parse text.toList with
  | .error e => { x with phase := .sends (.response (.ofError (.ofWire e))) }
  | .ok r =>
    let call := .publish x.principal r.target r.requestType.kind r.messageId r.data
    { x with phase := .publishes r.messageId (.begins call) }

/-- Takes up an event of the peer. A frame that is no text is answered; that the peer
left is no failure. -/
def takeEvent (s : Service) (x : Session) : Except TransportError String → Service × Session
  | .ok text => (s, x.takeText text)
  | .error (.malformedFrame reason) =>
    (s, { x with phase := .sends (.response (.ofError (.malformedMessage reason))) })
  | .error .disconnected => x.finish s (.ok ())
  | .error e => x.finish s (.error e)

/-- Takes up the message in the slot, which is counted as delivered. -/
def takeMessage (s : Service) (x : Session) (m : Message) : Service × Session :=
  ({ s with metrics := { s.metrics with delivered := s.metrics.delivered + 1 } },
    { x with slot := none, phase := .sends (.data (.ofMessage m)) })

/-- Takes up what a waiting session chooses, if it is ready. -/
def choose? (s : Service) (x : Session) (choice : Choice) : Option (Service × Session) :=
  match x.phase with
  | .selects =>
    match choice with
    | .gone => if x.connection.isLive then none else some (x.finish s (.ok ()))
    | .receive =>
      x.connection.receive?.map fun (connection, event?) =>
        let x := { x with connection }
        match event? with
        | some event => x.takeEvent s event
        | none => (s, x)
    | .relay =>
      match x.slot with
      | some m => some (x.takeMessage s m)
      | none => if x.forwarder = .stopped then some (x.finish s (.ok ())) else none
  | _ => none

/-- The reply to a message of the peer, once publishing it ended. -/
def replyTo (messageId : String) : Ending → Reply
  | .answered _ =>
    .success Status.success.code "enqueued" (some (.ofMembers [("message_id", .str messageId)]))
  | .failed e => .ofError e
  | .brokenOff => .ofError .cancelled

/-- Sends a frame. The session goes on if it was sent and the connection is live. This is
one step, too, although the sending is awaited: a session is dropped before it or after
it. -/
def sendFrame (s : Service) (x : Session) (frame : OutboundFrame) : Service × Session :=
  let (connection, result) := x.connection.send frame.text
  let x := { x with connection }
  match result with
  | .ok () => if connection.isLive then (s, { x with phase := .selects }) else x.finish s (.ok ())
  | .error .disconnected => x.finish s (.ok ())
  | .error e => x.finish s (.error e)

/-- Goes on with what the session took up, if it need not wait. -/
def proceed? (s : Service) (x : Session) : Option (Service × Session) :=
  match x.phase with
  | .publishes messageId phase =>
    (s.step? (.session x.name) phase).map fun move =>
      match move.progress with
      | .goesOn phase => (move.service, { x with phase := .publishes messageId phase })
      | .ends ending =>
        (move.service, { x with phase := .sends (.response (replyTo messageId ending)) })
  | .sends frame => some (x.sendFrame s frame)
  | _ => none

/-- Drops the session before its end. Its forwarder stops. -/
def drop (s : Service) (x : Session) : Service × Session :=
  if x.isRunning then
    (s.abandon (.session x.name), { x with forwarder := .stopped, phase := .dropped })
  else (s, x)

end Session
end DeviceRelay
