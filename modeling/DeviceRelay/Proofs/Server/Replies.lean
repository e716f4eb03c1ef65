/-
# Every prompt of a peer is replied to, in order

At any time as many replies were sent as prompts were taken up, or one reply fewer, so the reply
with some rank is the one to the prompt with this rank. The last reply is missing only while it is
not sent yet, where the session was dropped, or where it could not be sent, which ends the
session. What cannot be read is refused, and nothing else comes of it.

Key definitions: `Server.Answered`, `Server.Unanswered`, `Server.Refuses`, `Server.GoesOn`,
`Server.Conversation`.
Key theorems: `Server.answered_of_replied`, `Server.answered_of_heard`,
`Server.refuses_of_unread`, `Server.conversation_of_history`.
-/
import DeviceRelay.Proofs.Server.Prompts

namespace DeviceRelay
namespace Server

open Fifo (rank rank_take)

variable {s : Server} {name : String} {steps : List Step} {i j : Nat} {q : Prompt} {reply : Reply}
  {z : Step}

/-! ### Ranks -/

theorem length_repliedBy_le (name : String) (z : Step) : (repliedBy name z).length ≤ 1 :=
  Option.length_toList_le

theorem heardBy_ne_nil (h : promptOf? name z = some q) : heardBy name z ≠ [] := by
  simp [heardBy, h]

/-- What a session takes up has its rank among all that it takes up. -/
theorem Heard.rank_lt (h : Heard steps name i q) :
    rank (heardBy name) steps i < (steps.flatMap (heardBy name)).length := by
  obtain ⟨z, hi, heard⟩ := h
  have hlt := Fifo.rank_lt (Heard.lt ⟨z, hi, heard⟩) hi (heardBy_ne_nil heard)
  rwa [rank, rank, List.take_length] at hlt

theorem Heard.eq {i' : Nat} {q' : Prompt} (h : Heard steps name i q) (h' : Heard steps name i' q')
    (hrank : rank (heardBy name) steps i = rank (heardBy name) steps i') : i = i' ∧ q = q' := by
  obtain ⟨z, hi, heard⟩ := h
  obtain ⟨z', hi', heard'⟩ := h'
  obtain rfl := Fifo.eq_of_rank hi (heardBy_ne_nil heard) hi' (heardBy_ne_nil heard') hrank
  obtain rfl := Option.some.inj (hi.symm.trans hi')
  exact ⟨rfl, Option.some.inj (heard.symm.trans heard')⟩

theorem Latest.le {i' : Nat} {q' : Prompt} (h : Latest steps name i q) (h' : Heard steps name i' q') :
    i' ≤ i := by
  obtain ⟨z, hi, heard⟩ := h.heard
  refine Nat.not_lt.mp fun hlt => ?_
  have hrank := Fifo.rank_lt hlt hi (heardBy_ne_nil heard)
  have hlast := h'.rank_lt
  rw [h.last] at hlast
  rw [h.inOrder] at hrank
  omega

/-! ### Prompts and their replies -/

/-- The prompt of the step `i` is replied to in the step `j`. -/
structure Answered (steps : List Step) (name : String) (i : Nat) (q : Prompt) (j : Nat)
    (reply : Reply) : Prop where
  heard : Heard steps name i q
  replied : Replied steps name j reply
  later : i < j
  /-- As many prompts were taken up before as replies were sent before. -/
  inOrder : rank (heardBy name) steps i = rank (repliedBy name) steps j
  due : Due steps name i q j reply

theorem replyOf?_some (h : replyOf? name z = some reply) :
    ∃ x, z.before.session? name = some x ∧ x.phase = .sends (.response reply) := by
  obtain ⟨frame, hframe, hreply⟩ := Option.bind_eq_some_iff.mp h
  obtain ⟨-, x, here, hemits⟩ := frameOf?_some hframe
  refine ⟨x, here, ?_⟩
  unfold Session.emits? at hemits
  split at hemits
  · rename_i other hphase
    split at hemits
    · obtain rfl := Option.some.inj hemits
      cases other with
      | data d => cases hreply
      | response _ =>
        obtain rfl := Option.some.inj hreply
        exact hphase
    · cases hemits
  · cases hemits

/-- **Every reply is the one to a prompt**, in order. -/
theorem answered_of_replied {start : Server} (h : machine.History start s steps)
    (hsessions : start.sessions = []) (hreplied : Replied steps name j reply) :
    ∃ i q, Answered steps name i q j reply := by
  obtain ⟨z, hj, hreply⟩ := hreplied
  obtain ⟨x, here, before⟩ := replyOf?_some hreply
  have hlength : (steps.take j).length = j :=
    List.length_take_of_le (Nat.le_of_lt (List.getElem?_eq_some_iff.mp hj).1)
  obtain ⟨i, q, latest, due⟩ :=
    ((tally_of_history (h.take hj).1 hsessions name).2 x here).latest_of_response before
  have hlt : i < j := hlength ▸ latest.heard.lt
  obtain ⟨y, hi, heard⟩ := latest.heard
  refine ⟨i, q, ⟨y, (Machine.getElem?_take_eq_some hi).2, heard⟩, ⟨z, hj, hreply⟩, hlt, ?_, ?_⟩
  · rw [← rank_take (Nat.le_of_lt hlt), latest.inOrder]
    rfl
  · exact due.mono (fun _ _ hk => (Machine.getElem?_take_eq_some hk).2) (Nat.le_of_eq hlength)

/-- Why a prompt is not replied to. -/
inductive Unanswered (steps : List Step) (name : String) (i : Nat) (q : Prompt) (x : Session) : Prop where
  /-- The request is being published. -/
  | publishes (r : InboundRequest) (read : q.read = .ok r) (phase : Phase)
    (before : x.phase = .publishes r.messageId phase)
  /-- The reply is yet to be sent. -/
  | replies (reply : Reply) (due : Due steps name i q steps.length reply)
    (before : x.phase = .sends (.response reply))
  | unsent (result : Except TransportError Unit) (phase : x.phase = .ended result)
    (unsent : Unsent steps name i q)
  | dropped (phase : x.phase = .dropped)

/-- **Every prompt is replied to but the last one**, which may still be under way, or whose reply
could not be sent. -/
theorem answered_of_heard {start : Server} (h : machine.History start s steps)
    (hsessions : start.sessions = []) (heard : Heard steps name i q) :
    (∃ j reply, Answered steps name i q j reply) ∨
      (∀ i' q', Heard steps name i' q' → i' ≤ i) ∧
        ∃ x, s.session? name = some x ∧ Unanswered steps name i q x := by
  have htally := tally_of_history h hsessions name
  rcases Nat.lt_or_ge (rank (heardBy name) steps i) (steps.flatMap (repliedBy name)).length with hlt | hge
  · -- As many replies were sent, so one of them has the rank of the prompt.
    left
    obtain ⟨j, y, hj, hreplied, hrank⟩ := Fifo.exists_step
      (fun z _ => length_repliedBy_le name z) (List.getElem?_eq_getElem hlt)
    have hreply : replyOf? name y = some (steps.flatMap (repliedBy name))[rank (heardBy name) steps i] :=
      Option.toList_eq_singleton_iff.mp hreplied
    obtain ⟨i', q', answered⟩ := answered_of_replied h hsessions ⟨y, hj, hreply⟩
    obtain ⟨rfl, rfl⟩ := heard.eq answered.heard (hrank.symm.trans answered.inOrder.symm)
    exact ⟨j, _, answered⟩
  · -- Fewer replies were sent, so this is the prompt that is left.
    right
    have hrank := heard.rank_lt
    have even {P : Prop} (even : Even steps name) : P := by
      unfold Even at even
      omega
    have latest {i' : Nat} {q' : Prompt} (latest : Latest steps name i' q') : i = i' ∧ q = q' := by
      refine heard.eq latest.heard ?_
      have hlast := latest.last
      have horder := latest.inOrder
      omega
    cases hsession : s.session? name with
    | none => exact even (htally.1 hsession).even
    | some x =>
      cases htally.2 x hsession with
      | even even' => exact even even'
      | ended _ _ even' => exact even even'
      | publishes i' q' latest' r read phase before =>
        obtain ⟨rfl, rfl⟩ := latest latest'
        exact ⟨fun _ _ => latest'.le, x, rfl, .publishes r read phase before⟩
      | replies i' q' latest' reply due before =>
        obtain ⟨rfl, rfl⟩ := latest latest'
        exact ⟨fun _ _ => latest'.le, x, rfl, .replies reply due before⟩
      | unsent result phase i' q' latest' unsent =>
        obtain ⟨rfl, rfl⟩ := latest latest'
        exact ⟨fun _ _ => latest'.le, x, rfl, .unsent result phase unsent⟩
      | dropped phase counts =>
        rcases counts with even' | ⟨i', q', latest'⟩
        · exact even even'
        · obtain ⟨rfl, rfl⟩ := latest latest'
          exact ⟨fun _ _ => latest'.le, x, rfl, .dropped phase⟩

theorem Answered.eq {j' : Nat} {reply' : Reply} (h : Answered steps name i q j reply)
    (h' : Answered steps name i q j' reply') : j = j' ∧ reply = reply' := by
  obtain ⟨z, hj, hreply⟩ := h.replied
  obtain ⟨z', hj', hreply'⟩ := h'.replied
  have hne {z : Step} {reply : Reply} (hreply : replyOf? name z = some reply) :
      repliedBy name z ≠ [] := by simp [repliedBy, hreply]
  obtain rfl := Fifo.eq_of_rank hj (hne hreply) hj' (hne hreply') (h.inOrder.symm.trans h'.inOrder)
  obtain rfl := Option.some.inj (hj.symm.trans hj')
  exact ⟨rfl, Option.some.inj (hreply.symm.trans hreply')⟩

/-! ### What a refusal and a reply do -/

/-- A step of a session refuses what it takes up, and does nothing else. -/
structure Refuses (name : String) (z : Step) (reply : Reply) : Prop where
  service : z.after.service = z.before.service
  untold : z.events = []
  replies : ∃ y, z.after.session? name = some y ∧ y.phase = .sends (.response reply)
  code : reply.code = 400

/-- **What cannot be read is refused**, and does nothing to the service or the session. -/
theorem refuses_of_unread (h : z.before.step z.action = some (z.after, z.events))
    (heard : promptOf? name z = some q) {e : Error} (unread : q.read = .error e) :
    Refuses name z (.ofError e) := by
  obtain ⟨event, hevent, asks⟩ := Option.bind_eq_some_iff.mp heard
  obtain ⟨asked, x, connection, here, received⟩ := eventOf?_some hevent
  obtain rfl := session_name here
  rw [asked] at h
  obtain ⟨r, turn, hafter⟩ := choose_some here h
  have hstate : (z.before.after r).1 = z.after := congrArg Prod.fst hafter
  have hevents : (z.before.after r).2 = z.events := congrArg Prod.snd hafter
  have hr := Session.choose?_of_prompt received asks turn
  have hphase : r.2.phase = .sends (.response (.ofError e)) := by
    rw [hr]
    simp only [Prompt.phase, unread]
  constructor
  case service => rw [← hstate, service_after, hr]
  case untold => rw [← hevents, events_after, hphase]
  case replies =>
    rw [← hstate]
    exact ⟨r.2, session?_after here (name_of_acts (.choose .receive r turn)), hphase⟩
  case code =>
    unfold Reply.ofError Reply.failure
    rw [Prompt.malformed_of_read unread]
    rfl

/-- A session that sent a frame goes on, and leaves the service alone. -/
structure GoesOn (name : String) (z : Step) : Prop where
  service : z.after.service = z.before.service
  waits : ∃ y, z.after.session? name = some y ∧ y.phase = .selects

theorem goesOn_of_tried (h : z.before.step z.action = some (z.after, z.events))
    {frame : OutboundFrame} {result : Except TransportError Unit}
    (tried : triedIn? name z = some (frame, result)) :
    GoesOn name z ∨ ∃ ended, .sessionEnded name ended ∈ z.events := by
  obtain ⟨asked, x, here, before, -⟩ := triedIn?_some tried
  obtain rfl := session_name here
  rw [asked] at h
  obtain ⟨r, turn, hafter⟩ := proceed_some here h
  have hstate : (z.before.after r).1 = z.after := congrArg Prod.fst hafter
  have hevents : (z.before.after r).2 = z.events := congrArg Prod.snd hafter
  have hname := name_of_acts (.proceed r turn)
  rw [← hevents]
  cases Session.went_of_proceed? turn with
  | publishes _ _ before' => simp [before] at before'
  | sends _ _ connection sent live =>
    refine .inl ⟨by rw [← hstate, service_after], ?_⟩
    rw [← hstate]
    exact ⟨_, session?_after here hname, rfl⟩
  | ends _ _ connection ended breaks => exact .inr ⟨ended, mem_events_after.mpr ⟨hname, rfl⟩⟩

/-! ### The whole run -/

/-- What a run says of every session: what it replies, and how it ends. -/
structure Conversation (steps : List Step) (s : Server) : Prop where
  /-- Each reply is the one to the prompt with its rank: an acknowledgement with the identifier of
  the request if its letter was queued, and else the report of the error. -/
  replies : ∀ name j reply, Replied steps name j reply → ∃ i q, Answered steps name i q j reply
  /-- A prompt is replied to once. -/
  once : ∀ name i q j reply j' reply', Answered steps name i q j reply →
    Answered steps name i q j' reply' → j = j' ∧ reply = reply'
  /-- Each prompt is replied to but the last one at most. This one is being published, or its reply
  is yet to be sent, and if the session ended, the reply could not be sent. -/
  prompts : ∀ name i q, Heard steps name i q → (∃ j reply, Answered steps name i q j reply) ∨
    (∀ i' q', Heard steps name i' q' → i' ≤ i) ∧
      ∃ x, s.session? name = some x ∧ Unanswered steps name i q x
  /-- What cannot be read is refused with one code, and nothing else comes of it. -/
  refused : ∀ z ∈ steps, ∀ name q e, promptOf? name z = some q → q.read = .error e →
    Refuses name z (.ofError e)
  /-- To send a frame changes nothing unless the session ends. -/
  sends : ∀ z ∈ steps, ∀ name frame result, triedIn? name z = some (frame, result) →
    GoesOn name z ∨ ∃ ended, .sessionEnded name ended ∈ z.events
  /-- A session ends just when it leaves or breaks. -/
  ends : ∀ z ∈ steps, ∀ name result, .sessionEnded name result ∈ z.events ↔
    ∃ x, z.before.session? name = some x ∧ Parts x z.action result
  /-- It ends in failure just when it fails to receive or to send. -/
  failed : ∀ z ∈ steps, ∀ name e, .sessionEnded name (.error e) ∈ z.events ↔ Fails name z e
  /-- Just then a failure is counted. -/
  counted : ∀ z ∈ steps, z.after.service.metrics.errors =
    z.before.service.metrics.errors + z.events.countP Event.isFailure
  /-- A session that ended is closed. -/
  closed : ∀ z ∈ steps, ∀ name result, .sessionEnded name result ∈ z.events →
    ∃ y, z.after.session? name = some y ∧ y.phase = .ended result ∧
      y.connection.closed? = some (closeNormal, "session ended") ∧ y.connection.isLive = false

/-- **A session replies to every prompt in order, and ends in failure only where its connection
fails**, in every run of a server. -/
theorem conversation_of_history {config : Config} {epoch : Int} {start : Server}
    (hstart : ofConfig config epoch = .ok start) (h : machine.History start s steps) :
    Conversation steps s := by
  have hsessions := (ofConfig_relay hstart).2
  have hstep : ∀ z ∈ steps, z.before.step z.action = some (z.after, z.events) := by
    intro z hz
    obtain ⟨_, _, -, -, hstep, -⟩ := h.of_mem hz
    exact hstep
  constructor
  case replies => exact fun name j reply => answered_of_replied h hsessions
  case once => exact fun name i q j reply j' reply' => Answered.eq
  case prompts => exact fun name i q => answered_of_heard h hsessions
  case refused => exact fun z hz name q e heard unread => refuses_of_unread (hstep z hz) heard unread
  case sends => exact fun z hz name frame result => goesOn_of_tried (hstep z hz)
  case ends => exact fun z hz name result => parts_iff (hstep z hz)
  case failed => exact fun z hz name e => failed_iff (hstep z hz)
  case counted => exact fun z hz => errors_of_step (hstep z hz)
  case closed => exact fun z hz name result => closed_of_ended (hstep z hz)

/-! ### A run -/

/-- A request of the principal to itself. -/
def memo : String :=
  "\x7b\"request_type\":\"enqueue_request\",\"message_id\":\"m\"," ++
    "\"target_user_id\":1,\"data\":null\x7d"

/-- A text that is no request, bytes that are no text, a request, and one more text before the
connection is cut. -/
def monologue : List Action :=
  [.openSession "s" hermit (.webSocket {}), .peer "s" (.webSocket (.message (.text "?"))),
    .peer "s" (.webSocket (.message (.binary [255]))), .peer "s" (.webSocket (.message (.text memo))),
    .choose "s" .receive, .run (.session "s"), .choose "s" .receive, .run (.session "s"),
    .choose "s" .receive, .run (.session "s"), .run (.session "s"), .run (.session "s"),
    .peer "s" (.webSocket (.message (.text "?"))), .peer "s" (.webSocket .cut), .choose "s" .receive,
    .run (.session "s")]

theorem replay_monologue : (machine.replay solitaryStart monologue).isSome = true := by
  decide +kernel

/-- Of four prompts two are refused and one is acknowledged. The reply to the last one cannot be
sent, and the session ends in failure. -/
theorem conversation_of_monologue : ∃ (start s : Server) (steps : List Step),
    ofConfig solitary 0 = .ok start ∧ machine.History start s steps ∧
      (steps.flatMap (heardBy "s")).length = 4 ∧
      (steps.flatMap (repliedBy "s")).map (·.code) = [400, 400, 0] ∧
      s.service.metrics.errors = 1 ∧ Conversation steps s := by
  have hstart : ofConfig solitary 0 = .ok solitaryStart := rfl
  have h := Machine.history_of_replayed replay_monologue
  exact ⟨_, _, _, hstart, h, by decide +kernel, by decide +kernel, by decide +kernel,
    conversation_of_history hstart h⟩

end Server
end DeviceRelay
