/-
# What each step of a session does

The forwarder of a session begins to consume only while the slot is free, and puts into the
slot what it consumed. The session takes up a text of the peer as a letter of its own
principal, takes the message out of the slot and sends it, and leaves the slot alone in all
other steps. A session that ends or is dropped stops to consume.

Key definitions: `Connection.texts`, `Session.sending?`, `Session.held`, `Session.emits?`,
`Session.handed`, `Session.Same`, `Session.Forwarded`, `Session.Chosen`,
`Session.Proceeded`.
Key theorems: `Session.forwarded_of_forward?`, `Session.chosen_of_choose?`,
`Session.proceeded_of_proceed?`.
-/
import DeviceRelay.Session

namespace DeviceRelay

/-! ### Connections -/

namespace Connection

/-- The texts that were sent to the peer. -/
def texts (c : Connection) : List String :=
  c.sent.filterMap fun frame =>
    match frame with
    | .text s => some s
    | _ => none

theorem texts_send (c : Connection) (text : String) :
    (c.send text).1.texts = c.texts ++ match (c.send text).2 with
      | .ok _ => [text]
      | .error _ => [] := by
  cases c with
  | direct link =>
    simp only [send, DirectLink.send]
    split <;> simp [texts, sent]
  | webSocket ws =>
    simp only [send, WebSocket.send]
    split <;> simp [texts, sent]

theorem texts_close (c : Connection) (code : Nat) (reason : String) :
    (c.close code reason).texts = c.texts := by
  cases c with
  | direct link => rfl
  | webSocket ws =>
    unfold close WebSocket.close
    dsimp only [texts, sent]
    split <;> simp

theorem texts_receive? {c c' : Connection} {event : Option (Except TransportError String)}
    (h : c.receive? = some (c', event)) : c'.texts = c.texts := by
  cases c with
  | direct link =>
    obtain ⟨⟨link', e⟩, hr, h⟩ := Option.map_eq_some_iff.mp h
    obtain ⟨rfl, -⟩ := Prod.mk.inj h
    unfold DirectLink.receive? at hr
    split at hr
    · obtain ⟨rfl, -⟩ := Prod.mk.inj (Option.some.inj hr)
      rfl
    · obtain ⟨-, hr⟩ := Option.ite_none_right_eq_some.mp hr
      obtain ⟨rfl, -⟩ := Prod.mk.inj (Option.some.inj hr)
      rfl
  | webSocket ws =>
    obtain ⟨⟨ws', e⟩, hr, h⟩ := Option.map_eq_some_iff.mp h
    obtain ⟨rfl, -⟩ := Prod.mk.inj h
    unfold WebSocket.receive? at hr
    split at hr
    · obtain ⟨rfl, -⟩ := Prod.mk.inj (Option.some.inj hr)
      rfl
    · obtain ⟨rfl, -⟩ := Prod.mk.inj (Option.some.inj hr)
      rfl
    · obtain ⟨rfl, -⟩ := Prod.mk.inj (Option.some.inj hr)
      dsimp only [texts, sent]
      split <;> simp
    · obtain ⟨rfl, -⟩ := Prod.mk.inj (Option.some.inj hr)
      rfl
    · obtain ⟨_, -, hr⟩ := Option.map_eq_some_iff.mp hr
      obtain ⟨rfl, -⟩ := Prod.mk.inj hr
      rfl

theorem texts_onPeer (c : Connection) (event : PeerEvent) : (c.onPeer event).texts = c.texts := by
  cases c with
  | direct link =>
    cases event with
    | direct event =>
      unfold onPeer DirectLink.onPeer
      cases event with
      | text | failure | setLive => dsimp only [texts, sent]; split <;> rfl
      | hangUp | leave => rfl
    | webSocket => rfl
  | webSocket ws =>
    cases event with
    | direct => rfl
    | webSocket event =>
      unfold onPeer WebSocket.onPeer
      cases event with
      | _ => dsimp only [texts, sent]; split <;> rfl

end Connection

/-! ### Sessions -/

namespace Session

/-- The frame that a session has to send and that its connection takes. -/
def emits? (x : Session) : Option OutboundFrame :=
  match x.phase with
  | .sends frame =>
    match (x.connection.send frame.text).2 with
    | .ok _ => some frame
    | .error _ => none
  | _ => none

/-- The delivery that a session has to send. -/
def sending? (x : Session) : Option Delivery :=
  match x.phase with
  | .sends (.data delivery) => some delivery
  | _ => none

/-- What a session holds: what it is sending, and then what waits in its slot. -/
def held (x : Session) : List Delivery :=
  x.sending?.toList ++ (x.slot.map Delivery.ofMessage).toList

theorem length_held_le (x : Session) : x.held.length ≤ 2 := by
  have hsending : x.sending?.toList.length ≤ 1 := Option.length_toList_le
  have hslot : (x.slot.map Delivery.ofMessage).toList.length ≤ 1 := Option.length_toList_le
  rw [held, List.length_append]
  omega

/-- Two states of one session. -/
structure Same (x y : Session) : Prop where
  name : y.name = x.name
  principal : y.principal = x.principal

/-- A session whose forwarder consumed, or waits on. -/
def handed (x : Session) : Option Consumed → Session
  | none => x
  | some (.message m) => { x with forwarder := .reserves, slot := some m }
  | some .nothing => { x with forwarder := .reserves }
  | some _ => { x with forwarder := .stopped }

theorem same_handed (x : Session) (consumed? : Option Consumed) : x.Same (x.handed consumed?) := by
  cases consumed? with
  | none => exact ⟨rfl, rfl⟩
  | some consumed => cases consumed <;> exact ⟨rfl, rfl⟩

theorem same_takeText (x : Session) (text : String) : x.Same (x.takeText text) := by
  unfold takeText
  split <;> exact ⟨rfl, rfl⟩

/-- What a step of the forwarder does. -/
inductive Forwarded (s : Service) (x : Session) (r : Service × Session) : Prop where
  /-- The slot is free: it begins to consume. -/
  | reserves (runs : x.isRunning = true) (idle : x.forwarder = .reserves) (free : x.slot = none)
    (after : r = ({ s with
        relay := s.relay.begin (.session x.name) x.principal.id
          (s.config.relay.consumeTimeout * 1000) true },
      { x with forwarder := .consumes }))
  /-- It consumes. -/
  | consumes (runs : x.isRunning = true) (busy : x.forwarder = .consumes) (relay : Relay Party)
    (consumed? : Option Consumed)
    (run : s.relay.run? s.clock.now (.session x.name) = some (relay, consumed?))
    (after : r = ({ s with relay }, x.handed consumed?))

theorem Forwarded.same {s : Service} {x : Session} {r : Service × Session} (h : Forwarded s x r) :
    x.Same r.2 := by
  cases h with
  | reserves _ _ _ after => exact after ▸ ⟨rfl, rfl⟩
  | consumes _ _ _ consumed? _ after => exact after ▸ x.same_handed consumed?

theorem forwarded_of_forward? {s : Service} {x : Session} {r : Service × Session}
    (h : x.forward? s = some r) : Forwarded s x r := by
  unfold forward? at h
  dsimp only at h
  split at h
  · cases h
  · rename_i hruns
    replace hruns : x.isRunning = true := by simpa using hruns
    split at h
    · rename_i hidle
      split at h
      · cases h
      · rename_i hfree
        exact .reserves hruns hidle (by simpa using hfree) (Option.some.inj h).symm
    · rename_i hbusy
      obtain ⟨⟨relay, consumed?⟩, hrun, rfl⟩ := Option.map_eq_some_iff.mp h
      refine .consumes hruns hbusy relay consumed? hrun ?_
      cases consumed? with
      | none => rfl
      | some consumed => cases consumed <;> rfl
    · cases h

/-- What a step does with which a session takes something up. -/
inductive Chosen (s : Service) (x : Session) (choice : Choice) (r : Service × Session) : Prop where
  /-- What was received shows nothing. -/
  | keeps (connection : Connection) (silent : connection.texts = x.connection.texts)
    (after : r = (s, { x with connection }))
  /-- It takes up a text of its peer. -/
  | hears (asked : choice = .receive) (connection : Connection) (text : String)
    (received : x.connection.receive? = some (connection, some (.ok text)))
    (after : r = (s, { x with connection }.takeText text))
  /-- It takes up a frame that is no text. -/
  | refuses (connection : Connection) (silent : connection.texts = x.connection.texts)
    (reply : Reply) (after : r = (s, { x with connection, phase := .sends (.response reply) }))
  /-- It takes up the message in the slot. -/
  | takes (m : Message) (full : x.slot = some m) (after : r = x.takeMessage s m)
  | ends (connection : Connection) (silent : connection.texts = x.connection.texts)
    (result : Except TransportError Unit) (after : r = { x with connection }.finish s result)

theorem Chosen.same {s : Service} {x : Session} {choice : Choice} {r : Service × Session}
    (h : Chosen s x choice r) : x.Same r.2 := by
  cases h with
  | hears _ connection text _ after =>
    have h := same_takeText { x with connection } text
    exact after ▸ ⟨h.name, h.principal⟩
  | keeps _ _ after | refuses _ _ _ after | takes _ _ after | ends _ _ _ after =>
    exact after ▸ ⟨rfl, rfl⟩

theorem chosen_of_takeEvent (s : Service) (x : Session) (choice : Choice) (asked : choice = .receive)
    (connection : Connection) (event : Except TransportError String)
    (received : x.connection.receive? = some (connection, some event)) :
    Chosen s x choice ({ x with connection }.takeEvent s event) := by
  have hsilent := Connection.texts_receive? received
  unfold takeEvent
  split
  · exact .hears asked connection _ received rfl
  · exact .refuses connection hsilent _ rfl
  · exact .ends connection hsilent _ rfl
  · exact .ends connection hsilent _ rfl

theorem chosen_of_choose? {s : Service} {x : Session} {choice : Choice} {r : Service × Session}
    (h : x.choose? s choice = some r) : x.phase = .selects ∧ Chosen s x choice r := by
  unfold choose? at h
  split at h
  · rename_i hphase
    refine ⟨hphase, ?_⟩
    split at h
    · split at h
      · cases h
      · exact .ends x.connection rfl _ (Option.some.inj h).symm
    · obtain ⟨⟨connection, event?⟩, hr, rfl⟩ := Option.map_eq_some_iff.mp h
      cases event? with
      | some event => exact chosen_of_takeEvent s x _ rfl connection event hr
      | none => exact .keeps connection (Connection.texts_receive? hr) rfl
    · split at h
      · rename_i m hm
        exact .takes m hm (Option.some.inj h).symm
      · split at h
        · exact .ends x.connection rfl _ (Option.some.inj h).symm
        · cases h
  · cases h

/-- Where a session stands that published, or goes on to do so. -/
def onProgress (messageId : String) : Progress → SessionPhase
  | .goesOn next => .publishes messageId next
  | .ends ending => .sends (.response (replyTo messageId ending))

/-- What a step does with which a session goes on. -/
inductive Proceeded (s : Service) (x : Session) (r : Service × Session) : Prop where
  /-- It goes on to publish what it took up. -/
  | publishes (messageId : String) (phase : Phase) (before : x.phase = .publishes messageId phase)
    (move : Move) (moves : s.step? (.session x.name) phase = some move)
    (after : r = (move.service, { x with phase := onProgress messageId move.progress }))
  /-- It sends its frame. -/
  | sends (frame : OutboundFrame) (before : x.phase = .sends frame) (connection : Connection)
    (sent : x.connection.send frame.text = (connection, .ok ()))
    (after : r = (s, { x with connection, phase := .selects }))
  | ends (frame : OutboundFrame) (before : x.phase = .sends frame) (connection : Connection)
    (tried : connection = (x.connection.send frame.text).1)
    (result : Except TransportError Unit) (after : r = { x with connection }.finish s result)

theorem Proceeded.same {s : Service} {x : Session} {r : Service × Session} (h : Proceeded s x r) :
    x.Same r.2 := by
  cases h with
  | publishes _ _ _ _ _ after | sends _ _ _ _ after | ends _ _ _ _ _ after =>
    exact after ▸ ⟨rfl, rfl⟩

theorem proceeded_of_proceed? {s : Service} {x : Session} {r : Service × Session}
    (h : x.proceed? s = some r) : Proceeded s x r := by
  unfold proceed? at h
  split at h
  · rename_i messageId phase hphase
    obtain ⟨move, hmove, rfl⟩ := Option.map_eq_some_iff.mp h
    refine .publishes messageId phase hphase move hmove ?_
    split <;> rename_i hp <;> rw [hp] <;> rfl
  · rename_i frame hphase
    obtain rfl := Option.some.inj h
    unfold sendFrame
    cases hsend : x.connection.send frame.text with
    | mk connection result =>
    cases result with
    | ok _ =>
      simp only
      split
      · exact .sends frame hphase connection hsend rfl
      · exact .ends frame hphase connection (by rw [hsend]) _ rfl
    | error e =>
      cases e with
      | _ => exact .ends frame hphase connection (by rw [hsend]) _ rfl
  · cases h

theorem isRunning_drop (s : Service) (x : Session) : (x.drop s).2.isRunning = false := by
  unfold drop
  split
  · rfl
  · next h => exact Bool.eq_false_iff.mpr h

theorem same_drop (s : Service) (x : Session) : x.Same (x.drop s).2 := by
  unfold drop
  split <;> exact ⟨rfl, rfl⟩

end Session
end DeviceRelay
