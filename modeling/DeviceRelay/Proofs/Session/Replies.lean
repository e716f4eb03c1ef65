/-
# What a session replies to, and how it ends

A session replies to each text of its peer and to each frame that is no text. What cannot be
read is refused at once, with the code of a malformed request, and nothing else comes of it.
What can be read is published first. A session ends when its connection is no longer live, when
its peer left or receiving failed, when its forwarder stopped, or when a frame could not be sent.
It ends in failure only where receiving or sending fails for another reason than that the peer
left, and its connection is closed whenever it ends.

Key definitions: `Prompt`, `Prompt.read`, `Prompt.phase`, `Session.Leaves`, `Session.Breaks`,
`Session.Picked`, `Session.Went`, `Session.tries?`.
Key theorems: `Prompt.malformed_of_read`, `Session.picked_of_choose?`, `Session.went_of_proceed?`.
-/
import DeviceRelay.Proofs.Session.Turns

namespace DeviceRelay

/-- The letter of a request that a principal makes. -/
def InboundRequest.letter (r : InboundRequest) (sender : Principal) : Letter :=
  ⟨sender.id, r.target, r.requestType.kind, r.messageId, r.data⟩

/-- The reply in a response frame. -/
def OutboundFrame.reply? : OutboundFrame → Option Reply
  | .data _ => none
  | .response reply => some reply

/-! ### What is replied to -/

/-- What a peer sends that is replied to: a text, or a frame that is no text. -/
inductive Prompt where
  | text (words : String)
  | malformed (reason : String)

namespace Prompt

/-- The prompt that an event is, unless the peer left or receiving failed. -/
def ofEvent? : Except TransportError String → Option Prompt
  | .ok words => some (.text words)
  | .error (.malformedFrame reason) => some (.malformed reason)
  | .error _ => none

/-- What is read of a prompt. -/
def read : Prompt → Except Error InboundRequest
  | .text words => (InboundRequest.parse words.toList).mapError .ofWire
  | .malformed reason => .error (.malformedMessage reason)

theorem read_text (words : String) :
    (text words).read = (InboundRequest.parse words.toList).mapError .ofWire := rfl

/-- Where a session stands that took up a prompt: what cannot be read is replied to at once. -/
def phase (q : Prompt) (p : Principal) : SessionPhase :=
  match q.read with
  | .error e => .sends (.response (.ofError e))
  | .ok r =>
    .publishes r.messageId (.begins (.publish p r.target r.requestType.kind r.messageId r.data))

/-- **What cannot be read is refused as malformed.** -/
theorem malformed_of_read {q : Prompt} {e : Error} (h : q.read = .error e) :
    Status.ofError e = .malformed := by
  cases q with
  | malformed reason =>
    obtain rfl := Except.error.inj h
    rfl
  | text words =>
    rw [read_text] at h
    cases hparse : InboundRequest.parse words.toList with
    | ok r =>
      rw [hparse] at h
      cases h
    | error cause =>
      rw [hparse] at h
      obtain rfl := Except.error.inj h
      rfl

end Prompt

namespace Session

variable {s : Service} {x : Session} {r : Service × Session}

theorem takeText_eq (x : Session) (text : String) :
    x.takeText text = { x with phase := (Prompt.text text).phase x.principal } := by
  unfold takeText Prompt.phase
  rw [Prompt.read_text]
  cases InboundRequest.parse text.toList <;> rfl

/-- A session that receives a prompt takes it up, and leaves the service alone. -/
theorem takeEvent_of_prompt {event : Except TransportError String} {q : Prompt}
    (h : Prompt.ofEvent? event = some q) :
    x.takeEvent s event = (s, { x with phase := q.phase x.principal }) := by
  unfold Prompt.ofEvent? at h
  split at h
  · obtain rfl := Option.some.inj h
    rw [takeEvent, takeText_eq]
  · obtain rfl := Option.some.inj h
    rfl
  · cases h

/-! ### How a session ends -/

/-- A session that waits ends with a result, by what it chooses. -/
inductive Leaves (x : Session) : Choice → Except TransportError Unit → Prop where
  | dead (dead : x.connection.isLive = false) : Leaves x .gone (.ok ())
  | parted (connection : Connection)
    (received : x.connection.receive? = some (connection, some (.error .disconnected))) :
    Leaves x .receive (.ok ())
  | fails (connection : Connection) (e : TransportError)
    (received : x.connection.receive? = some (connection, some (.error e)))
    (here : e ≠ .disconnected) (serious : ∀ reason, e ≠ .malformedFrame reason) :
    Leaves x .receive (.error e)
  | alone (empty : x.slot = none) (stopped : x.forwarder = .stopped) : Leaves x .relay (.ok ())

/-- A session that sends a frame ends with a result. -/
inductive Breaks (x : Session) (frame : OutboundFrame) : Except TransportError Unit → Prop where
  /-- It was the last one, as the connection is no longer live. -/
  | dead (connection : Connection) (sent : x.connection.send frame.text = (connection, .ok ()))
    (dead : connection.isLive = false) : Breaks x frame (.ok ())
  | parted (connection : Connection)
    (unsent : x.connection.send frame.text = (connection, .error .disconnected)) :
    Breaks x frame (.ok ())
  | fails (connection : Connection) (e : TransportError)
    (unsent : x.connection.send frame.text = (connection, .error e)) (here : e ≠ .disconnected) :
    Breaks x frame (.error e)

/-- What a session does that waits. -/
inductive Picked (s : Service) (x : Session) : Choice → Service × Session → Prop where
  /-- What it received shows nothing. -/
  | rests (connection : Connection) (received : x.connection.receive? = some (connection, none)) :
    Picked s x .receive (s, { x with connection })
  | hears (connection : Connection) (event : Except TransportError String)
    (received : x.connection.receive? = some (connection, some event)) (q : Prompt)
    (asks : Prompt.ofEvent? event = some q) :
    Picked s x .receive (s, { x with connection, phase := q.phase x.principal })
  | relays (m : Message) (full : x.slot = some m) : Picked s x .relay (x.takeMessage s m)
  | ends (choice : Choice) (connection : Connection) (result : Except TransportError Unit)
    (leaves : x.Leaves choice result) : Picked s x choice ({ x with connection }.finish s result)

theorem picked_of_event {connection : Connection} {event : Except TransportError String}
    (received : x.connection.receive? = some (connection, some event)) :
    Picked s x .receive ({ x with connection }.takeEvent s event) := by
  cases hasks : Prompt.ofEvent? event with
  | some q =>
    rw [takeEvent_of_prompt hasks]
    exact .hears connection event received q hasks
  | none =>
    cases event with
    | ok text => cases hasks
    | error e =>
      cases e with
      | disconnected => exact .ends .receive connection (.ok ()) (.parted connection received)
      | malformedFrame reason => cases hasks
      | sendFailed reason | receiveFailed reason =>
        exact .ends .receive connection (.error _) (.fails connection _ received nofun nofun)

/-- **What a session does that waits**, and why it ends. -/
theorem picked_of_choose? {choice : Choice} (h : x.choose? s choice = some r) :
    x.phase = .selects ∧ Picked s x choice r := by
  unfold choose? at h
  split at h
  · rename_i hphase
    refine ⟨hphase, ?_⟩
    split at h
    · split at h
      · cases h
      · rename_i hlive
        obtain rfl := Option.some.inj h
        exact .ends .gone x.connection (.ok ()) (.dead (by simpa using hlive))
    · obtain ⟨⟨connection, event?⟩, hreceive, rfl⟩ := Option.map_eq_some_iff.mp h
      cases event? with
      | some event => exact picked_of_event hreceive
      | none => exact .rests connection hreceive
    · split at h
      · rename_i m hm
        obtain rfl := Option.some.inj h
        exact .relays m hm
      · rename_i hempty
        obtain ⟨hstopped, h⟩ := Option.ite_none_right_eq_some.mp h
        obtain rfl := Option.some.inj h
        exact .ends .relay x.connection (.ok ()) (.alone hempty hstopped)
  · cases h

theorem choose?_of_prompt {connection : Connection} {event : Except TransportError String}
    (received : x.connection.receive? = some (connection, some event)) {q : Prompt}
    (asks : Prompt.ofEvent? event = some q) (h : x.choose? s .receive = some r) :
    r = (s, { x with connection, phase := q.phase x.principal }) := by
  have hwaits := (picked_of_choose? h).1
  unfold choose? at h
  simp only [hwaits, received, Option.map_some, takeEvent_of_prompt asks] at h
  exact (Option.some.inj h).symm

/-- What a session does that goes on with what it took up. -/
inductive Went (s : Service) (x : Session) : Service × Session → Prop where
  | publishes (messageId : String) (phase : Phase) (before : x.phase = .publishes messageId phase)
    (move : Move) (moves : s.step? (.session x.name) phase = some move) :
    Went s x (move.service, { x with phase := onProgress messageId move.progress })
  | sends (frame : OutboundFrame) (before : x.phase = .sends frame) (connection : Connection)
    (sent : x.connection.send frame.text = (connection, .ok ())) (live : connection.isLive = true) :
    Went s x (s, { x with connection, phase := .selects })
  | ends (frame : OutboundFrame) (before : x.phase = .sends frame) (connection : Connection)
    (result : Except TransportError Unit) (breaks : x.Breaks frame result) :
    Went s x ({ x with connection }.finish s result)

theorem went_of_sendFrame {frame : OutboundFrame} (before : x.phase = .sends frame) :
    Went s x (x.sendFrame s frame) := by
  unfold sendFrame
  cases hsend : x.connection.send frame.text with
  | mk connection result =>
    cases result with
    | ok =>
      dsimp only
      split
      · rename_i hlive
        exact .sends frame before connection hsend hlive
      · rename_i hlive
        exact .ends frame before connection (.ok ()) (.dead connection hsend (by simpa using hlive))
    | error e =>
      cases e with
      | disconnected => exact .ends frame before connection (.ok ()) (.parted connection hsend)
      | sendFailed reason | receiveFailed reason | malformedFrame reason =>
        exact .ends frame before connection (.error _) (.fails connection _ hsend nofun)

/-- **What a session does that goes on**, and why it ends. -/
theorem went_of_proceed? (h : x.proceed? s = some r) : Went s x r := by
  unfold proceed? at h
  split at h
  · rename_i messageId phase hphase
    obtain ⟨move, hmove, rfl⟩ := Option.map_eq_some_iff.mp h
    have hwent : Went s x (move.service, { x with phase := onProgress messageId move.progress }) :=
      .publishes messageId phase hphase move hmove
    cases hprogress : move.progress <;> rw [hprogress] at hwent <;> exact hwent
  · rename_i frame hphase
    obtain rfl := Option.some.inj h
    exact went_of_sendFrame hphase
  · cases h

theorem ended_of_leaves {choice : Choice} {result : Except TransportError Unit}
    (leaves : x.Leaves choice result) (h : x.choose? s choice = some r) :
    r.2.phase = .ended result := by
  have hwaits := (picked_of_choose? h).1
  unfold choose? at h
  simp only [hwaits] at h
  cases leaves with
  | dead dead =>
    simp only [dead, Bool.false_eq_true, if_false] at h
    obtain rfl := Option.some.inj h
    rfl
  | parted connection received =>
    rw [received] at h
    obtain rfl := Option.some.inj h
    rfl
  | fails connection e received here serious =>
    rw [received] at h
    obtain rfl := Option.some.inj h
    cases e with
    | disconnected => exact absurd rfl here
    | malformedFrame reason => exact absurd rfl (serious reason)
    | sendFailed reason | receiveFailed reason => rfl
  | alone empty stopped =>
    simp only [empty, stopped, if_true] at h
    obtain rfl := Option.some.inj h
    rfl

theorem ended_of_breaks {frame : OutboundFrame} {result : Except TransportError Unit}
    (before : x.phase = .sends frame) (breaks : x.Breaks frame result) (h : x.proceed? s = some r) :
    r.2.phase = .ended result := by
  unfold proceed? at h
  simp only [before] at h
  obtain rfl := Option.some.inj h
  unfold sendFrame
  cases breaks with
  | dead connection sent dead =>
    simp only [sent, dead, Bool.false_eq_true, if_false]
    rfl
  | parted connection unsent =>
    simp only [unsent]
    rfl
  | fails connection e unsent here =>
    simp only [unsent]
    cases e with
    | disconnected => exact absurd rfl here
    | sendFailed reason | receiveFailed reason | malformedFrame reason => rfl

/-- The frame that a session has to send, and whether its connection takes it. -/
def tries? (x : Session) : Option (OutboundFrame × Except TransportError Unit) :=
  match x.phase with
  | .sends frame => some (frame, (x.connection.send frame.text).2)
  | _ => none

theorem closed_finish (s : Service) (x : Session) (result : Except TransportError Unit) :
    (x.finish s result).2.phase = .ended result ∧
      (x.finish s result).2.connection.closed? = some (closeNormal, "session ended") ∧
      (x.finish s result).2.connection.isLive = false := by
  unfold finish Connection.close
  cases x.connection <;> exact ⟨rfl, rfl, rfl⟩

end Session
end DeviceRelay
