/-
# A session takes up a prompt and owes its reply

A session that waits takes up one prompt at a time: a text, or a frame that is no text. What it
cannot read it refuses; what it can read it publishes, and replies to when that ends. Before it
sent this reply it takes up no other prompt. So in every state of a run as many replies were sent
as prompts were taken up, or one reply fewer, and then the phase of the session tells what became
of the last prompt.

Key definitions: `Server.promptOf?`, `Server.replyOf?`, `Server.Talks`, `Server.Due`,
`Server.Unsent`, `Server.Tally`.
Key theorems: `Server.talks_of_step`, `Server.Tally.concat`, `Server.tally_of_history`.
-/
import DeviceRelay.Proofs.Server.Endings
import DeviceRelay.Proofs.Server.Provenance

namespace DeviceRelay
namespace Server

open Fifo (rank rank_concat length_concat)

variable {s t : Server} {a : Action} {events : List Event} {name : String} {steps : List Step}

/-! ### What one step hears and sends -/

/-- The prompt that a session takes up in a step. -/
def promptOf? (name : String) (z : Step) : Option Prompt := (eventOf? name z).bind Prompt.ofEvent?

/-- The reply that a session sends in a step. -/
def replyOf? (name : String) (z : Step) : Option Reply :=
  (frameOf? name z).bind OutboundFrame.reply?

/-- What becomes of the prompts and replies of a session in a step. -/
inductive Talks (name : String) (z : Step) (x y : Session) : Prop where
  | rests (same : y.phase = x.phase) (unheard : promptOf? name z = none)
    (silent : replyOf? name z = none)
  | hears (waits : x.phase = .selects) (q : Prompt) (heard : promptOf? name z = some q)
    (silent : replyOf? name z = none) (after : y.phase = q.phase x.principal)
  | relays (waits : x.phase = .selects) (unheard : promptOf? name z = none)
    (silent : replyOf? name z = none) (d : Delivery) (after : y.phase = .sends (.data d))
  | publishes (messageId : String) (phase : Phase) (before : x.phase = .publishes messageId phase)
    (own : z.action = .run (.session name)) (unheard : promptOf? name z = none)
    (silent : replyOf? name z = none) (move : Move)
    (moves : z.before.service.step? (.session name) phase = some move)
    (after : y.phase = Session.onProgress messageId move.progress)
  | sends (frame : OutboundFrame) (before : x.phase = .sends frame)
    (unheard : promptOf? name z = none) (sent : replyOf? name z = frame.reply?)
    (after : y.phase = .selects ∨ ∃ result, y.phase = .ended result)
  | fails (frame : OutboundFrame) (before : x.phase = .sends frame)
    (unheard : promptOf? name z = none) (silent : replyOf? name z = none) (e : TransportError)
    (tried : triedIn? name z = some (frame, .error e)) (result : Except TransportError Unit)
    (after : y.phase = .ended result)
  | leaves (waits : x.phase = .selects) (unheard : promptOf? name z = none)
    (silent : replyOf? name z = none) (result : Except TransportError Unit)
    (after : y.phase = .ended result)
  | drops (unheard : promptOf? name z = none) (silent : replyOf? name z = none)
    (after : y.phase = .dropped)

theorem eventOf?_of_apart {z : Step} (apart : z.action.session? ≠ some name) :
    eventOf? name z = none := by
  unfold eventOf?
  split
  · next other ha =>
    rw [ha] at apart
    exact if_neg fun h => apart (congrArg some h)
  · rfl

theorem promptOf?_of_received {x : Session} (here : s.session? name = some x)
    {connection : Connection} {event? : Option (Except TransportError String)}
    (received : x.connection.receive? = some (connection, event?)) :
    promptOf? name ⟨s, .choose name .receive, t, events⟩ = event?.bind Prompt.ofEvent? := by
  simp [promptOf?, eventOf?, here, received]

theorem talks_of_picked {x : Session} (here : s.session? name = some x) (waits : x.phase = .selects)
    {choice : Choice} {r : Service × Session} (h : Session.Picked s.service x choice r) :
    Talks name ⟨s, .choose name choice, t, events⟩ x r.2 := by
  have silent (choice : Choice) : replyOf? name ⟨s, .choose name choice, t, events⟩ = none := rfl
  cases h with
  | rests connection received => exact .rests rfl (promptOf?_of_received here received) (silent _)
  | hears connection event received q asks =>
    exact .hears waits q ((promptOf?_of_received here received).trans asks) (silent _) rfl
  | relays m full => exact .relays waits rfl (silent _) _ rfl
  | ends _ connection result leaves =>
    refine .leaves waits ?_ (silent _) result rfl
    cases leaves with
    | dead | alone => rfl
    | parted _ received => exact promptOf?_of_received here received
    | fails _ e received notLeft serious =>
      rw [promptOf?_of_received here received]
      cases e with
      | malformedFrame reason => exact absurd rfl (serious reason)
      | disconnected | sendFailed reason | receiveFailed reason => rfl

theorem replyOf?_of_phase {x : Session} (here : s.session? name = some x) :
    replyOf? name ⟨s, .run (.session name), t, events⟩ = x.emits?.bind OutboundFrame.reply? := by
  simp [replyOf?, frameOf?, here]

theorem triedIn?_of_phase {x : Session} (here : s.session? name = some x) :
    triedIn? name ⟨s, .run (.session name), t, events⟩ = x.tries? := by
  simp [triedIn?, here]

theorem talks_of_went {x : Session} (here : s.session? name = some x) {r : Service × Session}
    (h : Session.Went s.service x r) : Talks name ⟨s, .run (.session name), t, events⟩ x r.2 := by
  obtain rfl := session_name here
  have hreply : replyOf? x.name ⟨s, .run (.session x.name), t, events⟩ =
      x.emits?.bind OutboundFrame.reply? := replyOf?_of_phase here
  have htried : triedIn? x.name ⟨s, .run (.session x.name), t, events⟩ = x.tries? :=
    triedIn?_of_phase here
  have sends {frame : OutboundFrame} {connection : Connection} (before : x.phase = .sends frame)
      (sent : x.connection.send frame.text = (connection, .ok ())) :
      replyOf? x.name ⟨s, .run (.session x.name), t, events⟩ = frame.reply? := by
    simp [hreply, Session.emits?, before, sent]
  have fails {frame : OutboundFrame} {connection : Connection} {e : TransportError}
      (before : x.phase = .sends frame) (unsent : x.connection.send frame.text = (connection, .error e))
      {y : Session} {result : Except TransportError Unit} (after : y.phase = .ended result) :
      Talks x.name ⟨s, .run (.session x.name), t, events⟩ x y :=
    .fails frame before rfl (by simp [hreply, Session.emits?, before, unsent]) e
      (by simp [htried, Session.tries?, before, unsent]) result after
  cases h with
  | publishes messageId phase before move moves =>
    exact .publishes messageId phase before rfl rfl (by simp [hreply, Session.emits?, before]) move
      moves rfl
  | sends frame before connection sent live =>
    exact .sends frame before rfl (sends before sent) (.inl rfl)
  | ends frame before connection result breaks =>
    cases breaks with
    | dead _ sent dead => exact .sends frame before rfl (sends before sent) (.inr ⟨_, rfl⟩)
    | parted _ unsent => exact fails before unsent rfl
    | fails _ e unsent notLeft => exact fails before unsent rfl

theorem becomes_of_acts {x y : Session} {r : Service × Session} (here : s.session? x.name = some x)
    (acts : Acts s x a r) (after : s.after r = (t, events)) (hy : t.session? x.name = some y) :
    r.2 = y := by
  obtain ⟨rfl, -⟩ := Prod.ext_iff.mp after
  exact Option.some.inj ((session?_after here (name_of_acts acts)).symm.trans hy)

/-- **What becomes of the prompts and replies of a session in any step.** -/
theorem talks_of_step {x y : Session} (h : s.step a = some (t, events))
    (hx : s.session? name = some x) (hy : t.session? name = some y) :
    Talks name ⟨s, a, t, events⟩ x y := by
  cases becomes_of_turn (turn_of_step h) name with
  | joins _ new => simp [new] at hx
  | rests apart after =>
    obtain rfl := Option.some.inj (hx.symm.trans (after.symm.trans hy))
    exact .rests rfl (by rw [promptOf?, eventOf?_of_apart apart]; rfl)
      (by rw [replyOf?, frameOf?_of_apart apart]; rfl)
  | acts x' here r turn relay after =>
    obtain rfl := Option.some.inj (hx.symm.trans here)
    obtain rfl := Option.some.inj (after.symm.trans hy)
    obtain rfl := session_name here
    cases turn with
    | forward _ turn => exact .rests (phase_of_forwarded turn) rfl rfl
    | choose choice =>
      obtain ⟨r', turn, hafter⟩ := choose_some here h
      have hsame : r'.2 = r.2 := becomes_of_acts here (.choose choice r' turn) hafter after
      obtain ⟨waits, hpicked⟩ := Session.picked_of_choose? turn
      exact hsame ▸ talks_of_picked here waits hpicked
    | proceed =>
      obtain ⟨r', turn, hafter⟩ := proceed_some here h
      have hsame : r'.2 = r.2 := becomes_of_acts here (.proceed r' turn) hafter after
      exact hsame ▸ talks_of_went here (Session.went_of_proceed? turn)
    | drop =>
      unfold Session.drop
      split
      · exact .drops rfl rfl rfl
      · exact .rests rfl rfl rfl
    | peer => exact .rests rfl rfl rfl

/-! ### Prompts and replies of a run -/

/-- The prompts that a session takes up in a step, of which there is one at most. -/
def heardBy (name : String) (z : Step) : List Prompt := (promptOf? name z).toList

/-- The replies that a session sends in a step, of which there is one at most. -/
def repliedBy (name : String) (z : Step) : List Reply := (replyOf? name z).toList

/-- The step `i` of a run takes up a prompt in a session. -/
def Heard (steps : List Step) (name : String) (i : Nat) (q : Prompt) : Prop :=
  ∃ z, steps[i]? = some z ∧ promptOf? name z = some q

/-- The step `j` of a run sends a reply in a session. -/
def Replied (steps : List Step) (name : String) (j : Nat) (reply : Reply) : Prop :=
  ∃ z, steps[j]? = some z ∧ replyOf? name z = some reply

/-- Whether a step queues a letter or fails, by the ending of the call that publishes it. -/
inductive Verdict (z : Step) (letter : Letter) : Ending → Prop where
  | enqueued (accepted : accepted? z = some letter) : Verdict z letter (.answered .done)
  | refused (e : Error) (nothing : accepted? z = none) : Verdict z letter (.failed e)

/-- A session ends in a step to publish a request. -/
structure Concludes (name : String) (z : Step) (r : InboundRequest) (ending : Ending) : Prop where
  own : z.action = .run (.session name)
  ends : ∃ x phase move, z.before.session? name = some x ∧ x.phase = .publishes r.messageId phase ∧
    phase.letter? = some (r.letter x.principal) ∧
    z.before.service.step? (.session name) phase = some move ∧ move.progress = .ends ending ∧
    Verdict z (r.letter x.principal) ending

/-- What is to be replied, up to the step `j`, to the prompt of the step `i`: an acknowledgement
with the identifier of the request if its letter was queued, and else the report of an error. -/
inductive Due (steps : List Step) (name : String) (i : Nat) (q : Prompt) (j : Nat) : Reply → Prop where
  /-- It cannot be read. -/
  | refused (e : Error) (unread : q.read = .error e) :
    Due steps name i q j ⟨false, (Status.ofError e).code, Status.messageFor e, none⟩
  /-- It is read as a request, which was published in the step `k`. -/
  | enqueued (r : InboundRequest) (read : q.read = .ok r) (k : Nat) (later : i < k) (earlier : k < j)
    (concluded : ∃ z, steps[k]? = some z ∧ Concludes name z r (.answered .done)) :
    Due steps name i q j
      ⟨true, 0, "enqueued", some (.ofMembers [("message_id", .str r.messageId)])⟩
  /-- It is read as a request, and to publish it failed in the step `k`. -/
  | failed (r : InboundRequest) (read : q.read = .ok r) (k : Nat) (later : i < k) (earlier : k < j)
    (e : Error) (concluded : ∃ z, steps[k]? = some z ∧ Concludes name z r (.failed e)) :
    Due steps name i q j ⟨false, (Status.ofError e).code, Status.messageFor e, none⟩

/-- Every prompt was replied to. -/
def Even (steps : List Step) (name : String) : Prop :=
  (steps.flatMap (heardBy name)).length = (steps.flatMap (repliedBy name)).length

/-- Every prompt was replied to but the last one, that of the step `i`. -/
structure Latest (steps : List Step) (name : String) (i : Nat) (q : Prompt) : Prop where
  heard : Heard steps name i q
  inOrder : rank (heardBy name) steps i = (steps.flatMap (repliedBy name)).length
  last : (steps.flatMap (heardBy name)).length = (steps.flatMap (repliedBy name)).length + 1

/-- The reply that was due to the prompt of the step `i` could not be sent. -/
def Unsent (steps : List Step) (name : String) (i : Nat) (q : Prompt) : Prop :=
  ∃ j z reply e, steps[j]? = some z ∧ Due steps name i q j reply ∧
    triedIn? name z = some (.response reply, .error e)

/-- How a session stands to the prompts of a run. -/
inductive Tally (steps : List Step) (name : String) (x : Session) : Prop where
  | even (even : Even steps name) (phase : x.phase = .selects ∨ ∃ d, x.phase = .sends (.data d))
  | publishes (i : Nat) (q : Prompt) (latest : Latest steps name i q) (r : InboundRequest)
    (read : q.read = .ok r) (phase : Phase) (before : x.phase = .publishes r.messageId phase)
    (carries : phase.letter? = some (r.letter x.principal))
  | replies (i : Nat) (q : Prompt) (latest : Latest steps name i q) (reply : Reply)
    (due : Due steps name i q steps.length reply) (before : x.phase = .sends (.response reply))
  | ended (result : Except TransportError Unit) (phase : x.phase = .ended result)
    (even : Even steps name)
  | unsent (result : Except TransportError Unit) (phase : x.phase = .ended result) (i : Nat)
    (q : Prompt) (latest : Latest steps name i q) (unsent : Unsent steps name i q)
  | dropped (phase : x.phase = .dropped)
    (counts : Even steps name ∨ ∃ i q, Latest steps name i q)

/-! ### One more step -/

variable {i j : Nat} {q : Prompt} {reply : Reply} {z : Step}

theorem Heard.lt (h : Heard steps name i q) : i < steps.length := by
  obtain ⟨z, hi, -⟩ := h
  exact (List.getElem?_eq_some_iff.mp hi).1

theorem Heard.concat (h : Heard steps name i q) (z : Step) : Heard (steps ++ [z]) name i q := by
  obtain ⟨y, hi, heard⟩ := h
  exact ⟨y, Machine.getElem?_append_of_some hi _, heard⟩

/-- What is due stays so in every run that goes on, or that this is a part of. -/
theorem Due.mono {steps' : List Step} {j' : Nat} (h : Due steps name i q j reply)
    (hsteps : ∀ (k : Nat) (z : Step), steps[k]? = some z → steps'[k]? = some z) (hj : j ≤ j') :
    Due steps' name i q j' reply := by
  cases h with
  | refused e unread => exact .refused e unread
  | enqueued r read k later earlier concluded =>
    obtain ⟨z, hk, concludes⟩ := concluded
    exact .enqueued r read k later (Nat.lt_of_lt_of_le earlier hj) ⟨z, hsteps k z hk, concludes⟩
  | failed r read k later earlier e concluded =>
    obtain ⟨z, hk, concludes⟩ := concluded
    exact .failed r read k later (Nat.lt_of_lt_of_le earlier hj) e ⟨z, hsteps k z hk, concludes⟩

theorem Unsent.concat (h : Unsent steps name i q) (z : Step) : Unsent (steps ++ [z]) name i q := by
  obtain ⟨j, y, reply, e, hj, due, tried⟩ := h
  exact ⟨j, y, reply, e, Machine.getElem?_append_of_some hj _,
    due.mono (fun _ _ hk => Machine.getElem?_append_of_some hk _) (Nat.le_refl j), tried⟩

section

variable (unheard : promptOf? name z = none)

include unheard

theorem Even.concat (h : Even steps name) (silent : replyOf? name z = none) :
    Even (steps ++ [z]) name := by
  unfold Even at h ⊢
  rw [length_concat, length_concat, h, heardBy, repliedBy, unheard, silent]
  rfl

theorem Latest.concat (h : Latest steps name i q) (silent : replyOf? name z = none) :
    Latest (steps ++ [z]) name i q := by
  refine ⟨h.heard.concat z, ?_, ?_⟩
  · rw [rank_concat (Nat.le_of_lt h.heard.lt), length_concat, h.inOrder, repliedBy, silent]
    rfl
  · rw [length_concat, length_concat, h.last, heardBy, repliedBy, unheard, silent]
    rfl

theorem Latest.replied (h : Latest steps name i q) (sent : replyOf? name z = some reply) :
    Even (steps ++ [z]) name := by
  unfold Even
  rw [length_concat, length_concat, h.last, heardBy, repliedBy, unheard, sent]
  rfl

end

theorem Even.heard (h : Even steps name) (heard : promptOf? name z = some q)
    (silent : replyOf? name z = none) : Latest (steps ++ [z]) name steps.length q := by
  unfold Even at h
  refine ⟨⟨z, List.getElem?_concat_length, heard⟩, ?_, ?_⟩
  · rw [rank_concat (Nat.le_refl _), length_concat, repliedBy, silent, rank, List.take_length, h]
    rfl
  · rw [length_concat, length_concat, h, heardBy, repliedBy, heard, silent]
    rfl

/-! ### How a session stands -/

namespace Tally

variable {x y : Session} (S : Tally steps name x)

include S

theorem even_of_selects (waits : x.phase = .selects) : Even steps name := by
  cases S with
  | even even => exact even
  | publishes _ _ _ _ _ _ before | replies _ _ _ _ _ before => simp [waits] at before
  | ended _ phase | unsent _ phase | dropped phase => simp [waits] at phase

theorem even_of_data {d : Delivery} (before : x.phase = .sends (.data d)) : Even steps name := by
  cases S with
  | even even => exact even
  | publishes _ _ _ _ _ _ before' | replies _ _ _ _ _ before' => simp [before] at before'
  | ended _ phase | unsent _ phase | dropped phase => simp [before] at phase

theorem latest_of_response (before : x.phase = .sends (.response reply)) :
    ∃ i q, Latest steps name i q ∧ Due steps name i q steps.length reply := by
  cases S with
  | even _ phase => simp [before] at phase
  | replies i q latest other due before' =>
    obtain rfl : other = reply := by simpa [before, eq_comm] using before'
    exact ⟨i, q, latest, due⟩
  | publishes _ _ _ _ _ _ before' => simp [before] at before'
  | ended _ phase | unsent _ phase | dropped phase => simp [before] at phase

theorem latest_of_publishes {messageId : String} {phase : Phase}
    (before : x.phase = .publishes messageId phase) : ∃ i q r, Latest steps name i q ∧
      q.read = .ok r ∧ messageId = r.messageId ∧ phase.letter? = some (r.letter x.principal) := by
  cases S with
  | even _ phase => simp [before] at phase
  | publishes i q latest r read other before' carries =>
    obtain ⟨rfl, rfl⟩ : messageId = r.messageId ∧ phase = other := by simpa [before] using before'
    exact ⟨i, q, r, latest, read, rfl, carries⟩
  | replies _ _ _ _ _ before' => simp [before] at before'
  | ended _ phase | unsent _ phase | dropped phase => simp [before] at phase

theorem counts : Even steps name ∨ ∃ i q, Latest steps name i q := by
  cases S with
  | even even | ended _ _ even => exact .inl even
  | publishes i q latest | replies i q latest | unsent _ _ i q latest => exact .inr ⟨i, q, latest⟩
  | dropped _ counts => exact counts

theorem rests (hsame : y.phase = x.phase) (same : y.principal = x.principal)
    (unheard : promptOf? name z = none) (silent : replyOf? name z = none) :
    Tally (steps ++ [z]) name y := by
  cases S with
  | even even phase => exact .even (even.concat unheard silent) (hsame ▸ phase)
  | publishes i q latest r read phase before carries =>
    exact .publishes i q (latest.concat unheard silent) r read phase (hsame.trans before)
      (same ▸ carries)
  | replies i q latest reply due before =>
    refine .replies i q (latest.concat unheard silent) reply ?_ (hsame.trans before)
    exact due.mono (fun _ _ hk => Machine.getElem?_append_of_some hk _) (by simp)
  | ended result phase even => exact .ended result (hsame.trans phase) (even.concat unheard silent)
  | unsent result phase i q latest unsent =>
    exact .unsent result (hsame.trans phase) i q (latest.concat unheard silent) (unsent.concat z)
  | dropped phase counts =>
    refine .dropped (hsame.trans phase) (counts.imp (·.concat unheard silent) ?_)
    rintro ⟨i, q, latest⟩
    exact ⟨i, q, latest.concat unheard silent⟩

/-- What a session takes up is refused at once, or begins to be published. -/
theorem hears (waits : x.phase = .selects) (heard : promptOf? name z = some q)
    (silent : replyOf? name z = none) (after : y.phase = q.phase x.principal)
    (same : y.principal = x.principal) : Tally (steps ++ [z]) name y := by
  have latest := (S.even_of_selects waits).heard heard silent
  unfold Prompt.phase at after
  cases hread : q.read with
  | error e =>
    rw [hread] at after
    exact .replies steps.length q latest _ (.refused e hread) after
  | ok r =>
    rw [hread] at after
    exact .publishes steps.length q latest r hread _ after (by rw [same]; rfl)

/-- The publishing of a request goes on with its letter, or comes to a reply. -/
theorem goesOn {messageId : String} {phase : Phase} (before : x.phase = .publishes messageId phase)
    (here : z.before.session? name = some x) (own : z.action = .run (.session name))
    (unheard : promptOf? name z = none) (silent : replyOf? name z = none) {move : Move}
    (moves : z.before.service.step? (.session name) phase = some move)
    (after : y.phase = Session.onProgress messageId move.progress)
    (same : y.principal = x.principal) : Tally (steps ++ [z]) name y := by
  obtain ⟨i, q, r, latest, read, rfl, carries⟩ := S.latest_of_publishes before
  have hlatest := latest.concat unheard silent
  have hphase : z.before.phaseOf? (.session name) = some phase := by simp [phaseOf?, here, before]
  have concluded {ending : Ending} (ends : move.progress = .ends ending)
      (verdict : Verdict z (r.letter x.principal) ending) : Tally (steps ++ [z]) name y := by
    have concludes : Concludes name z r ending :=
      ⟨own, x, phase, move, here, before, carries, moves, ends, verdict⟩
    have concluded : ∃ y, (steps ++ [z])[steps.length]? = some y ∧ Concludes name y r ending :=
      ⟨z, List.getElem?_concat_length, concludes⟩
    have earlier : steps.length < (steps ++ [z]).length := by simp
    refine .replies i q hlatest (Session.replyTo r.messageId ending) ?_ ?_
    · cases verdict with
      | enqueued => exact .enqueued r read steps.length latest.heard.lt earlier concluded
      | refused e => exact .failed r read steps.length latest.heard.lt earlier e concluded
    · rw [after, ends]
      rfl
  cases Service.published_of_step? carries moves with
  | carries next goesOn hnext =>
    refine .publishes i q hlatest r read next ?_ ?_
    · rw [after, goesOn]
      rfl
    · rw [same]
      exact hnext
  | enqueued queues usable ends =>
    subst queues
    obtain hletter : _ = r.letter x.principal := Option.some.inj carries
    refine concluded ends (.enqueued ?_)
    rw [← hletter]
    exact accepted?_of_queues own hphase usable
  | fails e ends refused =>
    exact concluded ends (.refused e (accepted?_eq_none own hphase refused))

/-- What is sent is the reply to the last prompt, or no reply. -/
theorem sends {frame : OutboundFrame} (before : x.phase = .sends frame)
    (unheard : promptOf? name z = none) (sent : replyOf? name z = frame.reply?) :
    Even (steps ++ [z]) name := by
  cases frame with
  | data d => exact (S.even_of_data before).concat unheard sent
  | response reply =>
    obtain ⟨i, q, latest, -⟩ := S.latest_of_response before
    exact latest.replied unheard sent

/-- What could not be sent is the reply to the last prompt, or no reply. -/
theorem fails {frame : OutboundFrame} (before : x.phase = .sends frame)
    (unheard : promptOf? name z = none) (silent : replyOf? name z = none) {e : TransportError}
    (tried : triedIn? name z = some (frame, .error e)) {result : Except TransportError Unit}
    (after : y.phase = .ended result) : Tally (steps ++ [z]) name y := by
  cases frame with
  | data d => exact .ended result after ((S.even_of_data before).concat unheard silent)
  | response reply =>
    obtain ⟨i, q, latest, due⟩ := S.latest_of_response before
    refine .unsent result after i q (latest.concat unheard silent)
      ⟨steps.length, z, reply, e, List.getElem?_concat_length, ?_, tried⟩
    exact due.mono (fun _ _ hk => Machine.getElem?_append_of_some hk _) (Nat.le_refl _)

/-- **How a session stands to its prompts after one more step.** -/
theorem concat (here : z.before.session? name = some x) (same : y.principal = x.principal)
    (T : Talks name z x y) : Tally (steps ++ [z]) name y := by
  cases T with
  | rests hsame unheard silent => exact S.rests hsame same unheard silent
  | hears waits q heard silent after => exact S.hears waits heard silent after same
  | relays waits unheard silent d after =>
    exact .even ((S.even_of_selects waits).concat unheard silent) (.inr ⟨d, after⟩)
  | publishes messageId phase before own unheard silent move moves after =>
    exact S.goesOn before here own unheard silent moves after same
  | sends frame before unheard sent after =>
    have even := S.sends before unheard sent
    rcases after with after | ⟨result, after⟩
    · exact .even even (.inl after)
    · exact .ended result after even
  | fails frame before unheard silent e tried result after =>
    exact S.fails before unheard silent tried after
  | leaves waits unheard silent result after =>
    exact .ended result after ((S.even_of_selects waits).concat unheard silent)
  | drops unheard silent after =>
    refine .dropped after (S.counts.imp (·.concat unheard silent) ?_)
    rintro ⟨i, q, latest⟩
    exact ⟨i, q, latest.concat unheard silent⟩

end Tally

/-! ### Runs -/

/-- A session that is not there yet heard and replied nothing. -/
structure Unborn (steps : List Step) (name : String) : Prop where
  unheard : steps.flatMap (heardBy name) = []
  silent : steps.flatMap (repliedBy name) = []

theorem Unborn.concat (U : Unborn steps name) (apart : z.action.session? ≠ some name) :
    Unborn (steps ++ [z]) name := by
  have unheard : heardBy name z = [] := by rw [heardBy, promptOf?, eventOf?_of_apart apart]; rfl
  have silent : repliedBy name z = [] := by rw [repliedBy, replyOf?, frameOf?_of_apart apart]; rfl
  constructor
  · rw [List.flatMap_append, U.unheard, List.flatMap_singleton, unheard]
    rfl
  · rw [List.flatMap_append, U.silent, List.flatMap_singleton, silent]
    rfl

theorem Unborn.even (U : Unborn steps name) : Even steps name := by
  rw [Even, U.unheard, U.silent]
  rfl

/-- **How every session stands to its prompts**, in every state of a run. -/
theorem tally_of_history {start : Server} (h : machine.History start s steps)
    (hsessions : start.sessions = []) (name : String) :
    (s.session? name = none → Unborn steps name) ∧
      ∀ x, s.session? name = some x → Tally steps name x := by
  induction h with
  | start =>
    refine ⟨fun _ => ⟨rfl, rfl⟩, fun x hx => ?_⟩
    simp [session?, hsessions] at hx
  | @step u t steps a events hu hstep ih =>
    have next {x y : Session} (hx : u.session? name = some x) (hy : t.session? name = some y)
        (same : y.principal = x.principal) : Tally (steps ++ [⟨u, a, t, events⟩]) name y :=
      (ih.2 x hx).concat hx same (talks_of_step hstep hx hy)
    cases becomes_of_turn (turn_of_step hstep) name with
    | acts x here r turn relay after =>
      refine ⟨fun hnone => by simp [after] at hnone, fun y hy => ?_⟩
      obtain rfl := Option.some.inj (after.symm.trans hy)
      exact next here hy turn.same.principal
    | rests apart after =>
      exact ⟨fun hnone => (ih.1 (after ▸ hnone)).concat apart,
        fun y hy => next (after ▸ hy) hy rfl⟩
    | joins apart new p connection after =>
      refine ⟨fun hnone => by simp [after] at hnone, fun y hy => ?_⟩
      obtain rfl := Option.some.inj (after.symm.trans hy)
      exact .even ((ih.1 new).concat apart).even (.inl rfl)

end Server
end DeviceRelay
