/-
# A session whose peer is gone soon ends

A peer that is gone sends no more, and nothing can be sent to it. A session whose peer is gone takes
up at most one more request, as it ends when it tries to reply. So after some steps, of which there are
no more than the messages that wait to be received and five, it has ended, and until then it need not
wait.

Key definitions: `Phase.stepsLeft`, `Connection.Deserted`, `Connection.waiting`,
`Session.turnsLeft`.
Key theorems: `Phase.stepsLeft_of_follows`, `Session.turnsLeft_of_choose?`,
`Session.turnsLeft_of_proceed?`, `Session.exists_turn_of_deserted`.
-/
import DeviceRelay.Proofs.Service.Phases
import DeviceRelay.Proofs.Service.Requests
import DeviceRelay.Proofs.Session.Mirrors

namespace DeviceRelay

/-! ### Calls that publish -/

namespace Phase

/-- How many steps a call that publishes makes at most until it ends. -/
def stepsLeft : Phase → Nat
  | .begins _ => 3
  | .compares .. => 2
  | .queues _ => 1
  | _ => 0

variable {s : Service} {previous next : Phase}

theorem stepsLeft_le (phase : Phase) : phase.stepsLeft ≤ 3 := by
  unfold stepsLeft
  split <;> omega

/-- A call that goes on to publish has fewer steps left. -/
theorem stepsLeft_of_follows (follows : Service.Follows s previous next) (publishing : next.publishes) :
    next.stepsLeft < previous.stepsLeft := by
  cases follows with
  | waits _ _ hwaits =>
    cases next with
    | awaits | lists | consumes => exact publishing.elim
    | _ => exact hwaits.elim
  | asks | claims | mayRemove => exact publishing.elim
  | toItself => exact Nat.le.step (Nat.lt_succ_self 1)
  | learns => exact Nat.lt_succ_self 2
  | connects => exact Nat.lt_succ_self 1

theorem exists_move_of_publishes (s : Service) (party : Party) {phase : Phase}
    (publishing : phase.publishes) : ∃ move, s.step? party phase = some move := by
  cases phase with
  | begins | compares | queues => exact ⟨_, rfl⟩
  | _ => exact publishing.elim

end Phase

/-! ### Connections -/

theorem DirectLink.peer_receive? {link link' : DirectLink} {event : Except TransportError String}
    (h : link.receive? = some (link', event)) : link'.hungUp = link.hungUp ∧ link'.left = link.left := by
  unfold receive? at h
  split at h
  · obtain ⟨rfl, -⟩ := Prod.mk.inj (Option.some.inj h)
    exact ⟨rfl, rfl⟩
  · obtain ⟨-, h⟩ := Option.ite_none_right_eq_some.mp h
    obtain ⟨rfl, -⟩ := Prod.mk.inj (Option.some.inj h)
    exact ⟨rfl, rfl⟩

theorem WebSocket.peer_receive? {ws ws' : WebSocket} {event? : Option (Except TransportError String)}
    (h : ws.receive? = some (ws', event?)) : ws'.peer = ws.peer := by
  cases hwaiting : ws.toServer with
  | cons m rest =>
    cases m with
    | text | binary | ping | pong =>
      simp only [receive?, hwaiting] at h
      obtain ⟨rfl, -⟩ := Prod.mk.inj (Option.some.inj h)
      rfl
  | nil =>
    simp only [receive?, hwaiting] at h
    obtain ⟨_, -, h⟩ := Option.map_eq_some_iff.mp h
    obtain ⟨rfl, -⟩ := Prod.mk.inj h
    rfl

namespace Connection

/-- The peer is gone: it sends no more, and receives no more. -/
def Deserted : Connection → Prop
  | .direct link => link.hungUp = true ∧ link.left = true
  | .webSocket ws => ws.peer ≠ .connected

/-- How many messages wait to be received. -/
def waiting : Connection → Nat
  | .direct link => link.toServer.length
  | .webSocket ws => ws.toServer.length

variable {c c' : Connection} {event? : Option (Except TransportError String)}

theorem send_of_deserted (deserted : c.Deserted) (text : String) :
    ∃ e, (c.send text).2 = .error e := by
  cases c with
  | direct link =>
    have hsend : link.send text = (link, .error .disconnected) := if_pos deserted.2
    dsimp only [send]
    rw [hsend]
    exact ⟨_, rfl⟩
  | webSocket ws =>
    have hsend : ws.send text = ({ ws with live := false }, _) := if_neg deserted
    dsimp only [send]
    rw [hsend]
    exact ⟨_, rfl⟩

theorem waiting_onPeer (deserted : c.Deserted) (event : PeerEvent) :
    (c.onPeer event).waiting = c.waiting := by
  cases c with
  | direct link =>
    cases event with
    | direct event =>
      cases event with
      | text | failure => simp only [onPeer, DirectLink.onPeer, if_pos deserted.1]
      | setLive => simp only [onPeer, DirectLink.onPeer, if_pos deserted.2]
      | hangUp | leave => rfl
    | webSocket => rfl
  | webSocket ws =>
    cases event with
    | direct => rfl
    | webSocket event =>
      have hstays : ws.onPeer event = ws := WebSocket.onPeer_of_gone deserted event
      dsimp only [onPeer]
      rw [hstays]

/-- **A peer that is gone stays so.** -/
theorem stable_deserted : Stable Deserted := by
  constructor
  case receives =>
    intro c c' event? deserted h
    cases c with
    | direct link =>
      obtain ⟨⟨link', e⟩, hreceive, h⟩ := Option.map_eq_some_iff.mp h
      obtain ⟨rfl, -⟩ := Prod.mk.inj h
      obtain ⟨hsilent, hleft⟩ := DirectLink.peer_receive? hreceive
      exact ⟨hsilent.trans deserted.1, hleft.trans deserted.2⟩
    | webSocket ws =>
      obtain ⟨⟨ws', e⟩, hreceive, h⟩ := Option.map_eq_some_iff.mp h
      obtain ⟨rfl, -⟩ := Prod.mk.inj h
      have hpeer : ws'.peer = ws.peer := WebSocket.peer_receive? hreceive
      exact fun hconnected => deserted (hpeer.symm.trans hconnected)
  case sends =>
    intro c text deserted
    cases c with
    | direct link =>
      have hsend : link.send text = (link, .error .disconnected) := if_pos deserted.2
      dsimp only [send]
      rw [hsend]
      exact deserted
    | webSocket ws =>
      have hsend : ws.send text = ({ ws with live := false }, _) := if_neg deserted
      dsimp only [send]
      rw [hsend]
      exact deserted
  case closes =>
    intro c code reason deserted
    cases c <;> exact deserted
  case meets =>
    intro c event deserted
    cases c with
    | direct link =>
      cases event with
      | direct event =>
        obtain ⟨hsilent, hleft⟩ := deserted
        cases event with
        | text | failure =>
          simp only [onPeer, DirectLink.onPeer, if_pos hsilent]
          exact ⟨hsilent, hleft⟩
        | setLive =>
          simp only [onPeer, DirectLink.onPeer, if_pos hleft]
          exact ⟨hsilent, hleft⟩
        | hangUp => exact ⟨rfl, hleft⟩
        | leave => exact ⟨rfl, rfl⟩
      | webSocket => exact deserted
    | webSocket ws =>
      cases event with
      | direct => exact deserted
      | webSocket event =>
        have hstays : ws.onPeer event = ws := WebSocket.onPeer_of_gone deserted event
        dsimp only [onPeer]
        rw [hstays]
        exact deserted

/-- There is always something to receive if the peer is gone: that it is, at last. -/
theorem exists_receive?_of_deserted (deserted : c.Deserted) : ∃ r, c.receive? = some r := by
  cases c with
  | direct link =>
    cases hwaiting : link.toServer with
    | cons event rest => simp [receive?, DirectLink.receive?, hwaiting]
    | nil => simp [receive?, DirectLink.receive?, hwaiting, deserted.1]
  | webSocket ws =>
    cases hwaiting : ws.toServer with
    | cons m rest => cases m <;> simp [receive?, WebSocket.receive?, hwaiting]
    | nil =>
      cases hpeer : ws.peer with
      | connected => exact absurd hpeer deserted
      | closed | cut => simp [receive?, WebSocket.receive?, WebSocket.ending?, hwaiting, hpeer]

/-- What shows nothing is received but once. -/
theorem waiting_of_rests (h : c.receive? = some (c', none)) : c.waiting = c'.waiting + 1 := by
  cases c with
  | direct link =>
    obtain ⟨_, -, h⟩ := Option.map_eq_some_iff.mp h
    cases h
  | webSocket ws =>
    obtain ⟨⟨ws', e⟩, hreceive, h⟩ := Option.map_eq_some_iff.mp h
    obtain ⟨rfl, rfl⟩ := Prod.mk.inj h
    unfold WebSocket.receive? at hreceive
    split at hreceive
    · cases hreceive
    · cases hreceive
    · rename_i bytes rest hwaiting
      obtain ⟨rfl, -⟩ := Prod.mk.inj (Option.some.inj hreceive)
      simp [waiting, hwaiting]
    · rename_i bytes rest hwaiting
      obtain ⟨rfl, -⟩ := Prod.mk.inj (Option.some.inj hreceive)
      simp [waiting, hwaiting]
    · obtain ⟨_, -, hreceive⟩ := Option.map_eq_some_iff.mp hreceive
      cases hreceive

end Connection

/-! ### Sessions -/

namespace Session

/-- How many steps a session whose peer is gone makes at most until it ends. -/
def turnsLeft (x : Session) : Nat :=
  match x.phase with
  | .selects => x.connection.waiting + 5
  | .publishes _ phase => phase.stepsLeft + 1
  | .sends _ => 1
  | .ended _ | .dropped => 0

variable {s : Service} {x : Session} {r : Service × Session}

theorem turnsLeft_finish (s : Service) (x : Session) (result : Except TransportError Unit) :
    (x.finish s result).2.turnsLeft = 0 := rfl

theorem turnsLeft_le (x : Session) : x.turnsLeft ≤ x.connection.waiting + 5 := by
  unfold turnsLeft
  split
  · exact Nat.le_refl _
  · rename_i phase _
    have hphase := phase.stepsLeft_le
    omega
  all_goals omega

/-- A session that took up a prompt has it to publish, and to reply to it. -/
theorem turnsLeft_prompt (x : Session) (connection : Connection) (q : Prompt) :
    { x with connection, phase := q.phase x.principal }.turnsLeft ≤ 4 := by
  unfold turnsLeft Prompt.phase
  dsimp only
  cases q.read with
  | error e => exact Nat.le_of_ble_eq_true rfl
  | ok request => exact Nat.le_refl 4

/-- **What a session takes up leaves it fewer steps.** -/
theorem turnsLeft_of_choose? {choice : Choice} (h : x.choose? s choice = some r) :
    r.2.turnsLeft < x.turnsLeft := by
  obtain ⟨hwaits, hpicked⟩ := picked_of_choose? h
  have hleft : x.turnsLeft = x.connection.waiting + 5 := by rw [turnsLeft, hwaits]
  cases hpicked with
  | rests connection received =>
    have hwaiting := Connection.waiting_of_rests received
    have hnow : { x with connection }.turnsLeft = connection.waiting + 5 := by
      unfold turnsLeft
      rw [hwaits]
    dsimp only
    omega
  | hears connection event received q asks =>
    have hprompt := x.turnsLeft_prompt connection q
    dsimp only
    omega
  | relays m full =>
    have hsends : (x.takeMessage s m).2.turnsLeft = 1 := rfl
    omega
  | ends choice connection result leaves =>
    rw [turnsLeft_finish]
    omega

/-- **A session whose peer is gone has fewer steps left as it goes on.** -/
theorem turnsLeft_of_proceed? (deserted : x.connection.Deserted)
    (publishing : ∀ messageId phase, x.phase = .publishes messageId phase → phase.publishes)
    (h : x.proceed? s = some r) : r.2.turnsLeft < x.turnsLeft := by
  cases went_of_proceed? h with
  | publishes messageId phase before move moves =>
    have hleft : x.turnsLeft = phase.stepsLeft + 1 := by rw [turnsLeft, before]
    have hpublishes := Service.step_publishes (publishing messageId phase before) moves
    cases hprogress : move.progress with
    | goesOn next =>
      have hfollows := (Service.passes_of_step? moves).follows hprogress
      have hless := Phase.stepsLeft_of_follows hfollows (hpublishes.next next hprogress)
      show next.stepsLeft + 1 < x.turnsLeft
      omega
    | ends ending =>
      have hpositive : 0 < phase.stepsLeft := by
        have hphase := publishing messageId phase before
        cases phase with
        | begins | compares | queues => exact Nat.succ_pos _
        | _ => exact hphase.elim
      show 1 < x.turnsLeft
      omega
  | sends frame before connection sent live =>
    obtain ⟨e, hfails⟩ := Connection.send_of_deserted deserted frame.text
    rw [sent] at hfails
    cases hfails
  | ends frame before connection result breaks =>
    have hleft : x.turnsLeft = 1 := by rw [turnsLeft, before]
    rw [turnsLeft_finish]
    omega

/-- The forwarder leaves it to the session how many steps it makes. -/
theorem turnsLeft_of_forward? (h : x.forward? s = some r) : r.2.turnsLeft = x.turnsLeft := by
  obtain ⟨hconnection, hphase⟩ := same_of_forward? h
  unfold turnsLeft
  rw [hconnection, hphase]

theorem turnsLeft_drop_le (s : Service) (x : Session) : (x.drop s).2.turnsLeft ≤ x.turnsLeft := by
  unfold drop
  split
  · exact Nat.zero_le _
  · exact Nat.le_refl _

/-- **A session whose peer is gone need not wait** as long as it runs. -/
theorem exists_turn_of_deserted (s : Service) (deserted : x.connection.Deserted)
    (publishing : ∀ messageId phase, x.phase = .publishes messageId phase → phase.publishes)
    (runs : x.isRunning = true) :
    (∃ r, x.choose? s .receive = some r) ∨ ∃ r, x.proceed? s = some r := by
  cases hphase : x.phase with
  | selects =>
    obtain ⟨received, hreceived⟩ := Connection.exists_receive?_of_deserted deserted
    left
    simp [choose?, hphase, hreceived]
  | publishes messageId phase =>
    obtain ⟨move, hmove⟩ := Phase.exists_move_of_publishes s (.session x.name)
      (publishing messageId phase hphase)
    right
    simp [proceed?, hphase, hmove]
  | sends frame =>
    right
    exact ⟨x.sendFrame s frame, by rw [proceed?, hphase]⟩
  | ended | dropped => simp [isRunning, hphase] at runs

end Session
end DeviceRelay
