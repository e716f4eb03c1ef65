/-
# Over a WebSocket a session does what it does within the process, but for failing

What a peer does over a WebSocket can be done within the process, too: there a peer that closed the
connection, or whose connection was cut, has left, and pings and pongs are not seen. A session takes
the same steps over either connection. Only where its peer is gone and it notices that as it sends,
or as the connection was cut, it ends in failure over the WebSocket, and as ever within the process.

Key definitions: `SocketMessage.event?`, `WebSocket.asDirect`, `WebSocket.PeerEvent.asDirect?`,
`TransportError.within`, `Connection.Stable`, `Session.asDirect`, `Session.rests`, `Session.within`.
Key theorems: `WebSocket.asDirect_onPeer`, `WebSocket.receive?_asDirect`,
`WebSocket.send_of_gone`, `Session.choose?_asDirect`, `Session.proceed?_asDirect`,
`Session.forward?_asDirect`.
-/
import DeviceRelay.Proofs.Session.Replies

namespace DeviceRelay

/-! ### Connections -/

/-- What a message shows to who receives it. A ping or a pong shows nothing. -/
def SocketMessage.event? : SocketMessage → Option (Except TransportError String)
  | .text s => some (.ok s)
  | .binary bytes => some (WebSocket.textOfBinary bytes)
  | .ping _ | .pong _ => none

def SocketFrame.text? : SocketFrame → Option String
  | .text s => some s
  | .pong _ | .close _ _ => none

/-- What a failure is within the process, where a peer that is gone has left. -/
def TransportError.within : TransportError → TransportError
  | .malformedFrame reason => .malformedFrame reason
  | _ => .disconnected

namespace TransportError

theorem mapError_ok (text : String) :
    (Except.ok text : Except TransportError String).mapError within = .ok text := rfl

theorem mapError_error (e : TransportError) :
    (Except.error e : Except TransportError String).mapError within = .error e.within := rfl

end TransportError

namespace WebSocket

/-- The connection within the process on which the same was sent and received. -/
def asDirect (ws : WebSocket) : DirectLink where
  toServer := ws.toServer.filterMap SocketMessage.event?
  toPeer := ws.toPeer.filterMap SocketFrame.text?
  hungUp := ws.peer ≠ .connected
  left := ws.peer ≠ .connected
  live := ws.live
  closed := ws.closed

/-- What a peer does within the process instead, if it shows at all. -/
def PeerEvent.asDirect? : PeerEvent → Option DirectLink.PeerEvent
  | .message m => m.event?.map fun event =>
    match event with
    | .ok s => .text s
    | .error e => .failure e
  | .close | .cut => some .leave

/-- Why nothing more is received where the connection was cut. -/
def cutFailure : TransportError :=
  .receiveFailed "WebSocket protocol error: Connection reset without closing handshake"

/-- Why nothing can be sent to a peer that is gone. -/
def sendRefusal : TransportError :=
  .sendFailed "WebSocket protocol error: Sending after closing is not allowed"

theorem cutFailure_serious :
    cutFailure ≠ .disconnected ∧ ∀ reason, cutFailure ≠ .malformedFrame reason := by
  constructor
  · intro h
    cases h
  · intro reason h
    cases h

theorem sendRefusal_ne : sendRefusal ≠ .disconnected := by
  intro h
  cases h

variable (ws : WebSocket)

theorem onPeer_of_gone {ws : WebSocket} (gone : ws.peer ≠ .connected) (event : PeerEvent) :
    ws.onPeer event = ws := by
  cases event <;> exact if_neg gone

/-- **What the peer does shows within the process, too.** -/
theorem asDirect_onPeer (event : PeerEvent) :
    (ws.onPeer event).asDirect = event.asDirect?.elim ws.asDirect ws.asDirect.onPeer := by
  by_cases hpeer : ws.peer = .connected
  · have hstays : ws.asDirect.hungUp = false := decide_eq_false (not_not_intro hpeer)
    cases event with
    | message m =>
      have hmessage : ws.onPeer (.message m) = { ws with toServer := ws.toServer ++ [m] } := if_pos hpeer
      rw [hmessage]
      cases hevent : m.event? with
      | none => simp [asDirect, PeerEvent.asDirect?, hevent]
      | some event =>
        cases event <;>
          simp [asDirect, PeerEvent.asDirect?, DirectLink.onPeer, hevent, hpeer]
    | close | cut => simp [onPeer, asDirect, PeerEvent.asDirect?, DirectLink.onPeer, hpeer]
  · -- a peer that is gone left before, and does nothing within the process either
    have hgone : ws.asDirect.hungUp = true := decide_eq_true hpeer
    rw [onPeer_of_gone hpeer]
    cases event with
    | message m =>
      cases hevent : m.event? with
      | none => simp [PeerEvent.asDirect?, hevent]
      | some event => cases event <;> simp [PeerEvent.asDirect?, DirectLink.onPeer, hevent, hgone]
    | close | cut => simp [asDirect, PeerEvent.asDirect?, DirectLink.onPeer, hpeer]

theorem gone_of_ending {peer : PeerState} {e : TransportError} (h : ending? peer = some e) :
    peer ≠ .connected ∧ e.within = .disconnected := by
  cases peer with
  | connected => cases h
  | closed | cut =>
    obtain rfl := Option.some.inj h
    refine ⟨?_, rfl⟩
    intro h
    cases h

/-- What the bytes of a message are is the same within the process. -/
theorem within_textOfBinary (bytes : List UInt8) :
    (textOfBinary bytes).mapError TransportError.within = textOfBinary bytes := by
  unfold textOfBinary
  cases Utf8.decode bytes <;> rfl

/-- **What is received shows within the process, too**, where a peer that is gone has left. -/
theorem receive?_asDirect {ws ws' : WebSocket} {event : Except TransportError String}
    (h : ws.receive? = some (ws', some event)) :
    ws.asDirect.receive? = some (ws'.asDirect, event.mapError TransportError.within) := by
  unfold receive? at h
  unfold DirectLink.receive?
  split at h
  · rename_i text rest hrest
    obtain ⟨rfl, hevent⟩ := Prod.mk.inj (Option.some.inj h)
    obtain rfl := Option.some.inj hevent
    rw [TransportError.mapError_ok]
    simp [asDirect, hrest, SocketMessage.event?]
  · rename_i bytes rest hrest
    obtain ⟨rfl, hevent⟩ := Prod.mk.inj (Option.some.inj h)
    obtain rfl := Option.some.inj hevent
    rw [within_textOfBinary]
    simp [asDirect, hrest, SocketMessage.event?]
  · cases h
  · cases h
  · rename_i hrest
    obtain ⟨e, hending, h⟩ := Option.map_eq_some_iff.mp h
    obtain ⟨rfl, hevent⟩ := Prod.mk.inj h
    obtain rfl := Option.some.inj hevent
    obtain ⟨hgone, hleft⟩ := gone_of_ending hending
    rw [TransportError.mapError_error, hleft]
    simp [asDirect, hrest, hgone]

/-- To receive a ping or a pong does not show within the process. -/
theorem asDirect_of_rests {ws ws' : WebSocket} (h : ws.receive? = some (ws', none)) :
    ws'.asDirect = ws.asDirect := by
  unfold receive? at h
  split at h
  · cases h
  · cases h
  · rename_i bytes rest hrest
    obtain ⟨rfl, -⟩ := Prod.mk.inj (Option.some.inj h)
    by_cases hpeer : ws.peer = .connected <;>
      simp [asDirect, hrest, hpeer, List.filterMap_cons, SocketMessage.event?, SocketFrame.text?]
  · rename_i bytes rest hrest
    obtain ⟨rfl, -⟩ := Prod.mk.inj (Option.some.inj h)
    simp [asDirect, hrest, List.filterMap_cons, SocketMessage.event?]
  · obtain ⟨e, -, h⟩ := Option.map_eq_some_iff.mp h
    cases h

/-- A text is sent to a peer that is connected, within the process as well. -/
theorem send_of_connected {ws : WebSocket} (connected : ws.peer = .connected) (text : String) :
    (ws.send text).2 = .ok () ∧ ws.asDirect.send text = ((ws.send text).1.asDirect, .ok ()) := by
  have hstays : ws.asDirect.left = false := decide_eq_false (not_not_intro connected)
  unfold send DirectLink.send
  rw [if_pos connected, hstays]
  exact ⟨rfl, by simp [asDirect, connected, SocketFrame.text?]⟩

/-- **To send to a peer that is gone fails**, where within the process it is that the peer left. -/
theorem send_of_gone {ws : WebSocket} (gone : ws.peer ≠ .connected) (text : String) :
    ws.send text = ({ ws with live := false }, .error sendRefusal) ∧
      ws.asDirect.send text = (ws.asDirect, .error .disconnected) := by
  have hleft : ws.asDirect.left = true := decide_eq_true gone
  unfold send DirectLink.send
  rw [if_neg gone, hleft]
  exact ⟨rfl, rfl⟩

theorem asDirect_close (code : Nat) (reason : String) :
    (ws.close code reason).asDirect = ws.asDirect.close code reason := by
  by_cases hpeer : ws.peer = .connected <;>
    simp [close, asDirect, DirectLink.close, hpeer, SocketFrame.text?]

/-- **To receive fails just where the connection was cut**, once all was received. -/
theorem receive?_fails_iff {e : TransportError} (here : e ≠ .disconnected)
    (serious : ∀ reason, e ≠ .malformedFrame reason) :
    (∃ ws', ws.receive? = some (ws', some (.error e))) ↔
      ws.toServer = [] ∧ ws.peer = .cut ∧ e = cutFailure := by
  constructor
  · rintro ⟨ws', h⟩
    unfold receive? at h
    split at h
    · cases h
    · rename_i bytes rest _
      obtain ⟨-, hevent⟩ := Prod.mk.inj (Option.some.inj h)
      have htext := Option.some.inj hevent
      unfold textOfBinary at htext
      split at htext
      · cases htext
      · exact absurd (Except.error.inj htext).symm (serious _)
    · cases h
    · cases h
    · rename_i htaken
      obtain ⟨e', hending, h⟩ := Option.map_eq_some_iff.mp h
      obtain ⟨-, hevent⟩ := Prod.mk.inj h
      obtain rfl := Except.error.inj (Option.some.inj hevent)
      refine ⟨htaken, ?_⟩
      cases hpeer : ws.peer with
      | connected => simp [ending?, hpeer] at hending
      | closed => exact absurd (by simpa [ending?, hpeer] using hending.symm) here
      | cut => exact ⟨rfl, by simpa [ending?, hpeer, cutFailure] using hending.symm⟩
  · rintro ⟨htaken, hcut, rfl⟩
    refine ⟨{ ws with live := false }, ?_⟩
    unfold receive?
    rw [htaken, hcut]
    rfl

end WebSocket

/-- What the peer of a connection over a WebSocket does within the process instead, if it shows at
all. -/
def PeerEvent.asDirect? : PeerEvent → Option DirectLink.PeerEvent
  | .direct _ => none
  | .webSocket event => event.asDirect?

namespace Connection

/-- The connection within the process on which the same was sent and received. -/
def asDirect : Connection → Connection
  | .direct link => .direct link
  | .webSocket ws => .direct ws.asDirect

/-- **What the peer of a WebSocket does shows within the process, too.** -/
theorem asDirect_onPeer (ws : WebSocket) (event : PeerEvent) :
    ((webSocket ws).onPeer event).asDirect =
      event.asDirect?.elim (.direct ws.asDirect) fun event => .direct (ws.asDirect.onPeer event) := by
  cases event with
  | direct event => rfl
  | webSocket event =>
    have hevent := ws.asDirect_onPeer event
    show Connection.direct (ws.onPeer event).asDirect = event.asDirect?.elim _ _
    rw [hevent]
    cases event.asDirect? <;> rfl

/-- Whether a connection is over a WebSocket. -/
def isSocket : Connection → Bool
  | .direct _ => false
  | .webSocket _ => true

theorem exists_of_isSocket {c : Connection} (h : c.isSocket = true) : ∃ ws, c = .webSocket ws := by
  cases c with
  | direct link => cases h
  | webSocket ws => exact ⟨ws, rfl⟩

/-- A property of a connection that lasts, whatever the server and the peer do with it. -/
structure Stable (P : Connection → Prop) : Prop where
  receives : ∀ {c c' : Connection} {event? : Option (Except TransportError String)}, P c →
    c.receive? = some (c', event?) → P c'
  sends : ∀ {c : Connection} (text : String), P c → P (c.send text).1
  closes : ∀ {c : Connection} (code : Nat) (reason : String), P c → P (c.close code reason)
  meets : ∀ {c : Connection} (event : PeerEvent), P c → P (c.onPeer event)

theorem stable_isSocket : Stable (·.isSocket = true) := by
  constructor
  case receives =>
    intro c c' event? hsocket h
    obtain ⟨ws, rfl⟩ := exists_of_isSocket hsocket
    obtain ⟨_, -, h⟩ := Option.map_eq_some_iff.mp h
    obtain ⟨rfl, -⟩ := Prod.mk.inj h
    rfl
  case sends =>
    intro c text hsocket
    obtain ⟨ws, rfl⟩ := exists_of_isSocket hsocket
    rfl
  case closes =>
    intro c code reason hsocket
    obtain ⟨ws, rfl⟩ := exists_of_isSocket hsocket
    rfl
  case meets =>
    intro c event hsocket
    obtain ⟨ws, rfl⟩ := exists_of_isSocket hsocket
    cases event <;> rfl

theorem isLive_asDirect (c : Connection) : c.asDirect.isLive = c.isLive := by
  cases c <;> rfl

theorem asDirect_close (c : Connection) (code : Nat) (reason : String) :
    (c.close code reason).asDirect = c.asDirect.close code reason := by
  cases c with
  | direct link => rfl
  | webSocket ws => exact congrArg Connection.direct (ws.asDirect_close code reason)

end Connection

/-! ### Sessions -/

theorem Prompt.phase_ne_ended (q : Prompt) (p : Principal) (result : Except TransportError Unit) :
    q.phase p ≠ .ended result := by
  unfold phase
  split <;> (intro h; cases h)

namespace Session

/-- The session over the connection within the process. -/
def asDirect (x : Session) : Session := { x with connection := x.connection.asDirect }

/-- What a session is within the process after a step, with its service: it ends well where it
ends, and no failure is counted. -/
def within (r : Service × Session) : Service × Session :=
  match r.2.phase with
  | .ended (.error _) =>
    ({ r.1 with metrics := { r.1.metrics with errors := r.1.metrics.errors - 1 } },
      { r.2.asDirect with phase := .ended (.ok ()) })
  | _ => (r.1, r.2.asDirect)

/-- Whether what a session receives next shows nothing. -/
def rests (x : Session) : Bool := x.connection.receive?.any (·.2.isNone)

variable {s : Service} {x : Session} {r : Service × Session}

theorem within_of_calm (calm : ∀ e, r.2.phase ≠ .ended (.error e)) :
    within r = (r.1, r.2.asDirect) := by
  unfold within
  split
  · rename_i e hphase
    exact absurd hphase (calm e)
  · rfl

/-- A session that ends over a WebSocket ends well within the process. -/
theorem within_finish (s : Service) (x : Session) (result : Except TransportError Unit) :
    within (x.finish s result) = x.asDirect.finish s (.ok ()) := by
  unfold within finish asDirect
  rw [← Connection.asDirect_close]
  cases result <;> rfl

/-- **A session takes up an event as within the process.** -/
theorem within_takeEvent (s : Service) (x : Session) (event : Except TransportError String) :
    within (x.takeEvent s event) =
      x.asDirect.takeEvent s (event.mapError TransportError.within) := by
  cases hasks : Prompt.ofEvent? event with
  | some q =>
    have hsame : event.mapError TransportError.within = event := by
      unfold Prompt.ofEvent? at hasks
      split at hasks
      · rfl
      · rfl
      · cases hasks
    rw [hsame, takeEvent_of_prompt hasks, takeEvent_of_prompt hasks]
    exact within_of_calm fun e => q.phase_ne_ended x.principal (.error e)
  | none =>
    cases event with
    | ok text => cases hasks
    | error e =>
      cases e with
      | malformedFrame reason => cases hasks
      | disconnected => exact within_finish s x (.ok ())
      | sendFailed reason | receiveFailed reason => exact within_finish s x (.error _)

/-- A connection over a WebSocket receives what the WebSocket does. -/
theorem webSocket_of_receive? {ws : WebSocket} {connection : Connection}
    {event? : Option (Except TransportError String)}
    (h : (Connection.webSocket ws).receive? = some (connection, event?)) :
    ∃ ws', connection = .webSocket ws' ∧ ws.receive? = some (ws', event?) := by
  obtain ⟨⟨ws', _⟩, hreceive, h⟩ := Option.map_eq_some_iff.mp h
  obtain ⟨rfl, rfl⟩ := Prod.mk.inj h
  exact ⟨ws', rfl, hreceive⟩

variable {ws : WebSocket}

theorem connection_asDirect (wired : x.connection = .webSocket ws) :
    x.asDirect.connection = .direct ws.asDirect := by
  unfold asDirect
  rw [wired]
  rfl

/-- What a session receives that shows nothing leaves it as it is within the process. -/
theorem asDirect_of_rests (wired : x.connection = .webSocket ws) (resting : x.rests = true)
    (h : x.choose? s .receive = some r) : r.1 = s ∧ r.2.asDirect = x.asDirect ∧ r.2.phase = x.phase := by
  have silent : ∀ connection event, x.connection.receive? ≠ some (connection, some event) := by
    intro connection event hreceive
    simp [rests, hreceive] at resting
  obtain ⟨-, hpicked⟩ := picked_of_choose? h
  cases hpicked with
  | rests connection received =>
    rw [wired] at received
    obtain ⟨ws', rfl, hreceived⟩ := webSocket_of_receive? received
    have hsame : ws'.asDirect = ws.asDirect := WebSocket.asDirect_of_rests hreceived
    refine ⟨rfl, ?_, rfl⟩
    unfold asDirect
    rw [wired]
    simp only [Connection.asDirect, hsame]
  | hears connection event received => exact absurd received (silent connection event)
  | ends _ connection result leaves =>
    cases leaves with
    | parted connection received => exact absurd received (silent connection _)
    | fails connection e received => exact absurd received (silent connection _)

/-- **A session takes up what it chooses as within the process**, unless that shows nothing. -/
theorem choose?_asDirect {choice : Choice} (wired : x.connection = .webSocket ws)
    (shows : choice = .receive → x.rests = false) (h : x.choose? s choice = some r) :
    x.asDirect.choose? s choice = some (within r) := by
  have hwaits := (picked_of_choose? h).1
  have hwaits' : x.asDirect.phase = .selects := hwaits
  have hslot : x.asDirect.slot = x.slot := rfl
  have hforwarder : x.asDirect.forwarder = x.forwarder := rfl
  unfold choose? at h ⊢
  simp only [hwaits] at h
  simp only [hwaits']
  cases choice with
  | gone =>
    have hlive : x.asDirect.connection.isLive = x.connection.isLive := x.connection.isLive_asDirect
    obtain ⟨hdead, h⟩ := Option.ite_none_left_eq_some.mp h
    obtain rfl := Option.some.inj h
    dsimp only
    rw [hlive, if_neg hdead, within_finish]
  | receive =>
    obtain ⟨⟨connection, event?⟩, hreceive, rfl⟩ := Option.map_eq_some_iff.mp h
    cases event? with
    | none =>
      have hrests := shows rfl
      simp [rests, hreceive] at hrests
    | some event =>
      rw [wired] at hreceive
      obtain ⟨ws', rfl, hreceived⟩ := webSocket_of_receive? hreceive
      have hwithin := WebSocket.receive?_asDirect hreceived
      have hconnection := connection_asDirect wired
      rw [hconnection]
      simp only [Connection.receive?, hwithin, Option.map_some, within_takeEvent]
      rfl
  | relay =>
    dsimp only at h ⊢
    rw [hslot, hforwarder]
    cases hm : x.slot with
    | some m =>
      rw [hm] at h
      obtain rfl := Option.some.inj h
      rfl
    | none =>
      rw [hm] at h
      obtain ⟨hstopped, h⟩ := Option.ite_none_right_eq_some.mp h
      obtain rfl := Option.some.inj h
      dsimp only
      rw [if_pos hstopped, within_finish]

/-- **A session sends a frame as within the process.** -/
theorem within_sendFrame (s : Service) {x : Session} (wired : x.connection = .webSocket ws)
    (frame : OutboundFrame) : within (x.sendFrame s frame) = x.asDirect.sendFrame s frame := by
  have hconnection := connection_asDirect wired
  unfold sendFrame
  rw [wired, hconnection]
  by_cases hpeer : ws.peer = .connected
  · obtain ⟨hsent, hwithin⟩ := WebSocket.send_of_connected hpeer frame.text
    have hlive : (ws.send frame.text).1.asDirect.live = (ws.send frame.text).1.live := rfl
    simp only [Connection.send, hsent, hwithin, Connection.isLive, hlive]
    by_cases h : (ws.send frame.text).1.live = true
    · rw [if_pos h, if_pos h]
      apply within_of_calm
      intro e hended
      cases hended
    · rw [if_neg h, if_neg h]
      exact within_finish s _ _
  · -- both find the peer gone, and close the connection that is left
    obtain ⟨hrefused, hwithin⟩ := WebSocket.send_of_gone hpeer frame.text
    simp only [Connection.send, hrefused, hwithin, WebSocket.sendRefusal]
    rw [within_finish]
    rfl

/-- **A session goes on as within the process.** -/
theorem proceed?_asDirect (wired : x.connection = .webSocket ws) (h : x.proceed? s = some r) :
    x.asDirect.proceed? s = some (within r) := by
  have hphase : x.asDirect.phase = x.phase := rfl
  have hname : x.asDirect.name = x.name := rfl
  unfold proceed? at h ⊢
  rw [hphase, hname]
  split at h
  · obtain ⟨move, hmove, rfl⟩ := Option.map_eq_some_iff.mp h
    rw [hmove, Option.map_some]
    cases move.progress <;> rfl
  · rename_i frame _
    obtain rfl := Option.some.inj h
    rw [within_sendFrame s wired]
  · cases h

/-- **The forwarder of a session does what it does within the process.** -/
theorem forward?_asDirect (h : x.forward? s = some r) : x.asDirect.forward? s = some (within r) := by
  have running {y : Session} (hphase : y.phase = x.phase) (hruns : x.isRunning = true) :
      ∀ e, y.phase ≠ .ended (.error e) := by
    intro e hended
    simp [isRunning, ← hphase, hended] at hruns
  cases forwarded_of_forward? h with
  | reserves runs idle free after =>
    have hruns : x.asDirect.isRunning = true := runs
    have hidle : x.asDirect.forwarder = .reserves := idle
    have hfree : x.asDirect.slot = none := free
    rw [after, within_of_calm (running rfl runs)]
    unfold forward?
    simp only [hruns, hidle, hfree, Bool.not_true, Bool.false_eq_true, if_false, Option.isSome_none]
    simp only [asDirect, free]
  | consumes runs busy relay consumed? run after =>
    have hruns : x.asDirect.isRunning = true := runs
    have hbusy : x.asDirect.forwarder = .consumes := busy
    have hrun : s.relay.run? s.clock.now (.session x.asDirect.name) = some (relay, consumed?) := run
    have hphase : (x.handed consumed?).phase = x.phase := by
      cases consumed? with
      | none => rfl
      | some consumed => cases consumed <;> rfl
    rw [after, within_of_calm (running hphase runs)]
    unfold forward?
    simp only [hruns, hbusy, hrun, Bool.not_true, Bool.false_eq_true, if_false, Option.map_some]
    cases consumed? with
    | none => rfl
    | some consumed => cases consumed <;> rfl

/-! ### What lasts of a connection -/

section Stable

variable {P : Connection → Prop} (stable : Connection.Stable P)
include stable

theorem stable_finish (s : Service) {x : Session} (hx : P x.connection)
    (result : Except TransportError Unit) : P (x.finish s result).2.connection :=
  stable.closes closeNormal "session ended" hx

theorem stable_takeEvent (s : Service) {x : Session} (hx : P x.connection)
    (event : Except TransportError String) : P (x.takeEvent s event).2.connection := by
  unfold takeEvent
  split
  · rw [takeText_eq]
    exact hx
  · exact hx
  · exact stable_finish stable s hx _
  · exact stable_finish stable s hx _

theorem stable_choose? {choice : Choice} (hx : P x.connection) (h : x.choose? s choice = some r) :
    P r.2.connection := by
  unfold choose? at h
  split at h
  · split at h
    · obtain ⟨-, h⟩ := Option.ite_none_left_eq_some.mp h
      obtain rfl := Option.some.inj h
      exact stable_finish stable s hx _
    · obtain ⟨⟨connection, event?⟩, hreceive, rfl⟩ := Option.map_eq_some_iff.mp h
      have hreceived : P connection := stable.receives hx hreceive
      cases event? with
      | some event => exact stable_takeEvent stable s hreceived event
      | none => exact hreceived
    · split at h
      · obtain rfl := Option.some.inj h
        exact hx
      · obtain ⟨-, h⟩ := Option.ite_none_right_eq_some.mp h
        obtain rfl := Option.some.inj h
        exact stable_finish stable s hx _
  · cases h

theorem stable_proceed? (hx : P x.connection) (h : x.proceed? s = some r) : P r.2.connection := by
  cases proceeded_of_proceed? h with
  | publishes _ _ _ move _ after =>
    rw [after]
    exact hx
  | sends frame _ connection sent after =>
    have hsent := stable.sends frame.text hx
    rw [sent] at hsent
    rw [after]
    exact hsent
  | ends frame _ connection tried result after =>
    have hsent : P connection := tried ▸ stable.sends frame.text hx
    rw [after]
    exact stable_finish stable s hsent result

end Stable

/-- The forwarder leaves the connection and the phase of its session alone. -/
theorem same_of_forward? (h : x.forward? s = some r) :
    r.2.connection = x.connection ∧ r.2.phase = x.phase := by
  cases forwarded_of_forward? h with
  | reserves _ _ _ after =>
    rw [after]
    exact ⟨rfl, rfl⟩
  | consumes _ _ _ consumed? _ after =>
    rw [after]
    cases consumed? with
    | none => exact ⟨rfl, rfl⟩
    | some consumed => cases consumed <;> exact ⟨rfl, rfl⟩

theorem connection_drop (s : Service) (x : Session) : (x.drop s).2.connection = x.connection := by
  unfold drop
  split <;> rfl

theorem drop_asDirect (s : Service) (x : Session) :
    x.asDirect.drop s = ((x.drop s).1, (x.drop s).2.asDirect) := by
  have hruns : x.asDirect.isRunning = x.isRunning := rfl
  unfold drop
  rw [hruns]
  split <;> rfl

end Session
end DeviceRelay
