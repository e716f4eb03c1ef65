/-
# When a session ends, and what is told and counted of it

The end of a session is told once its connection is closed, in the step in which it leaves or
breaks. It is the end of a failed session just when receiving fails or sending fails, for another
reason than that the peer left or that a frame was no text. Each failed session is counted in the
step that tells its end, and no other step counts one.

Key definitions: `Event.isFailure`, `Server.Acts`, `Server.Shows`, `Server.Parts`,
`Server.eventOf?`, `Server.triedIn?`.
Key theorems: `Server.shows_of_step`, `Server.parts_iff`, `Server.failed_iff`,
`Server.errors_of_step`, `Server.closed_of_ended`.
-/
import DeviceRelay.Proofs.Server.Turns
import DeviceRelay.Proofs.Service.Endings
import DeviceRelay.Proofs.Session.Replies

namespace DeviceRelay

/-- Whether an event is the end of a session that failed. -/
def Event.isFailure : Event → Bool
  | .sessionEnded _ (.error _) => true
  | _ => false

namespace Server

variable {s t : Server} {a : Action} {events : List Event} {name : String}

/-! ### What a step shows -/

/-- A step of a session of its own, and what it becomes. -/
inductive Acts (s : Server) (x : Session) : Action → Service × Session → Prop where
  | forward (r : Service × Session) (turn : x.forward? s.service = some r) :
    Acts s x (.run (.forward x.name)) r
  | choose (choice : Choice) (r : Service × Session) (turn : x.choose? s.service choice = some r) :
    Acts s x (.choose x.name choice) r
  | proceed (r : Service × Session) (turn : x.proceed? s.service = some r) :
    Acts s x (.run (.session x.name)) r

/-- What a step shows of the ends of sessions. -/
inductive Shows (s : Server) (a : Action) (t : Server) (events : List Event) : Prop where
  | session (x : Session) (here : s.session? x.name = some x) (r : Service × Session)
    (acts : Acts s x a r) (after : s.after r = (t, events))
  /-- No session ends, and none is counted as failed. -/
  | other (silent : ∀ name result, .sessionEnded name result ∉ events)
    (errors : t.service.metrics.errors = s.service.metrics.errors)

theorem shows_of_beginCall {label : String} {origin : Origin} {call : Call}
    (h : s.beginCall? label origin call = some t) : Shows s a t [] := by
  obtain ⟨_, -, -, -, rfl⟩ := beginCall_some h
  exact .other (fun _ _ => List.not_mem_nil) rfl

theorem shows_of_openSession {p : Principal} {connection : Connection}
    (h : s.openSession? name p connection = some t)
    (silent : ∀ name result, .sessionEnded name result ∉ events) : Shows s a t events := by
  unfold openSession? at h
  obtain ⟨-, h⟩ := Option.ite_none_left_eq_some.mp h
  obtain rfl := Option.some.inj h
  exact .other silent rfl

theorem shows_of_runCall {label : String} (h : s.runCall? label = some (t, events)) :
    Shows s a t events := by
  obtain ⟨c, move, -, moves, hservice, -, -, hprogress⟩ := runCall_some h
  have herrors : t.service.metrics.errors = s.service.metrics.errors := by
    rw [hservice]
    exact Service.errors_of_step? moves
  refine .other (fun name result hended => ?_) herrors
  rcases hprogress with ⟨_, -, rfl, -⟩ | ⟨ending, -, rfl, -⟩
  · cases hended
  · cases hcall : c.origin <;> simp [endEvent, hcall] at hended

theorem shows_of_runTask {task : Task} (h : s.runTask? task = some (t, events)) :
    Shows s (.run task) t events := by
  cases task with
  | call label => exact shows_of_runCall h
  | background b =>
    obtain ⟨service, hb, h⟩ := Option.map_eq_some_iff.mp h
    obtain ⟨rfl, rfl⟩ := Prod.mk.inj h
    exact .other (fun _ _ => List.not_mem_nil) (Service.errors_of_runBackground? hb)
  | forward name =>
    obtain ⟨x, hx, h⟩ := Option.bind_eq_some_iff.mp h
    obtain ⟨r, hr, hafter⟩ := Option.bind_eq_some_iff.mp h
    obtain rfl := session_name hx
    exact .session x hx r (.forward r hr) (Option.some.inj hafter)
  | session name =>
    obtain ⟨x, hx, h⟩ := Option.bind_eq_some_iff.mp h
    obtain ⟨r, hr, hafter⟩ := Option.bind_eq_some_iff.mp h
    obtain rfl := session_name hx
    exact .session x hx r (.proceed r hr) (Option.some.inj hafter)

/-- **Only the steps of a session show the end of one.** -/
theorem shows_of_step (h : s.step a = some (t, events)) : Shows s a t events := by
  cases a with
  | call label call =>
    obtain ⟨t', ht, h⟩ := Option.map_eq_some_iff.mp h
    obtain ⟨rfl, rfl⟩ := Prod.mk.inj h
    exact shows_of_beginCall ht
  | http label r draw =>
    simp only [step, beginHttp?] at h
    split at h
    · obtain ⟨rfl, rfl⟩ := Prod.mk.inj (Option.some.inj h)
      exact .other (by simp) rfl
    · obtain ⟨t', ht, h⟩ := Option.map_eq_some_iff.mp h
      obtain ⟨rfl, rfl⟩ := Prod.mk.inj h
      exact shows_of_beginCall ht
  | openSession name p connection =>
    obtain ⟨t', ht, h⟩ := Option.map_eq_some_iff.mp h
    obtain ⟨rfl, rfl⟩ := Prod.mk.inj h
    exact shows_of_openSession ht fun _ _ => List.not_mem_nil
  | handshake name r =>
    simp only [step, shake?] at h
    split at h
    · obtain ⟨rfl, rfl⟩ := Prod.mk.inj (Option.some.inj h)
      exact .other (by simp) rfl
    · obtain ⟨t', ht, h⟩ := Option.map_eq_some_iff.mp h
      obtain ⟨rfl, rfl⟩ := Prod.mk.inj h
      exact shows_of_openSession ht (by simp)
  | run task => exact shows_of_runTask h
  | choose name choice =>
    obtain ⟨x, hx, h⟩ := Option.bind_eq_some_iff.mp h
    obtain ⟨r, hr, hafter⟩ := Option.bind_eq_some_iff.mp h
    obtain rfl := session_name hx
    exact .session x hx r (.choose choice r hr) (Option.some.inj hafter)
  | peer name event =>
    obtain ⟨x, -, h⟩ := Option.map_eq_some_iff.mp h
    obtain ⟨rfl, rfl⟩ := Prod.mk.inj h
    exact .other (fun _ _ => List.not_mem_nil) rfl
  | dropSession name =>
    obtain ⟨x, -, h⟩ := Option.map_eq_some_iff.mp h
    obtain ⟨rfl, rfl⟩ := Prod.mk.inj h
    refine .other (fun _ _ => List.not_mem_nil) ?_
    show (x.drop s.service).1.metrics.errors = _
    unfold Session.drop
    split <;> rfl
  | dropCall label | shutDown | setStore delay fault | setQueues fault | refill common own =>
    obtain ⟨rfl, rfl⟩ := Prod.mk.inj (Option.some.inj h)
    exact .other (fun _ _ => List.not_mem_nil) rfl
  | link user device =>
    simp only [step] at h
    split at h <;> obtain ⟨rfl, rfl⟩ := Prod.mk.inj (Option.some.inj h) <;>
      exact .other (by simp) rfl
  | pushRaw recipient bytes =>
    obtain ⟨rfl, rfl⟩ := Prod.mk.inj (Option.some.inj h)
    exact .other (by simp) rfl
  | tick moment =>
    simp only [step] at h
    split at h
    · obtain ⟨rfl, rfl⟩ := Prod.mk.inj (Option.some.inj h)
      exact .other (fun _ _ => List.not_mem_nil) rfl
    · cases h

/-! ### The end of a session -/

theorem events_after (s : Server) (r : Service × Session) : (s.after r).2 = match r.2.phase with
    | .ended result => [.sessionEnded r.2.name result]
    | _ => [] := by
  unfold after
  cases hphase : r.2.phase <;> simp [hphase]

theorem mem_events_after {r : Service × Session} {result : Except TransportError Unit} :
    .sessionEnded name result ∈ (s.after r).2 ↔ r.2.name = name ∧ r.2.phase = .ended result := by
  rw [events_after]
  split
  · rename_i other hphase
    simp only [List.mem_singleton, Event.sessionEnded.injEq, hphase, SessionPhase.ended.injEq]
    exact and_congr eq_comm eq_comm
  · rename_i hphase
    simp only [List.not_mem_nil, false_iff, not_and]
    exact fun _ => hphase result

theorem session?_after {x : Session} {r : Service × Session} (here : s.session? x.name = some x) (same : r.2.name = x.name) :
    (s.after r).1.session? x.name = some r.2 := by
  have hset : (s.after r).1.session? x.name = (s.setSession r.2).session? x.name := by
    unfold after
    dsimp only
    split <;> rfl
  rw [hset, session?_setSession, if_pos same.symm, here]
  rfl

/-- A session ends with a result in a step. -/
inductive Parts (x : Session) : Action → Except TransportError Unit → Prop where
  | leaves (choice : Choice) (result : Except TransportError Unit) (leaves : x.Leaves choice result) :
    Parts x (.choose x.name choice) result
  | breaks (frame : OutboundFrame) (before : x.phase = .sends frame)
    (result : Except TransportError Unit) (breaks : x.Breaks frame result) :
    Parts x (.run (.session x.name)) result

variable {x : Session} {r : Service × Session} {result : Except TransportError Unit}

theorem phase_of_forwarded {v : Service} (h : Session.Forwarded v x r) : r.2.phase = x.phase := by
  cases h with
  | reserves _ _ _ after => rw [after]
  | consumes _ _ _ consumed? _ after =>
    rw [after]
    cases consumed? with
    | none => rfl
    | some consumed => cases consumed <;> rfl

theorem runs_of_forwarded {v : Service} (h : Session.Forwarded v x r) : x.isRunning = true := by
  cases h with
  | reserves runs => exact runs
  | consumes runs => exact runs

theorem name_of_acts (acts : Acts s x a r) : r.2.name = x.name := by
  cases acts with
  | forward _ turn => exact (Session.forwarded_of_forward? turn).same.name
  | choose _ _ turn => exact (Session.chosen_of_choose? turn).2.same.name
  | proceed _ turn => exact (Session.proceeded_of_proceed? turn).same.name

/-- A session that ends is finished, as it leaves or breaks. -/
theorem finish_of_acts (acts : Acts s x a r) (hended : r.2.phase = .ended result) :
    Parts x a result ∧ ∃ connection, r = { x with connection }.finish s.service result := by
  cases acts with
  | forward _ turn =>
    have hforwarded := Session.forwarded_of_forward? turn
    have hruns := runs_of_forwarded hforwarded
    rw [phase_of_forwarded hforwarded] at hended
    simp [Session.isRunning, hended] at hruns
  | choose choice _ turn =>
    obtain ⟨hwaits, hpicked⟩ := Session.picked_of_choose? turn
    cases hpicked with
    | rests => simp [hwaits] at hended
    | hears _ _ _ q =>
      simp only [Prompt.phase] at hended
      split at hended <;> cases hended
    | relays => cases hended
    | ends _ connection _ leaves =>
      obtain rfl := SessionPhase.ended.inj hended
      exact ⟨.leaves choice _ leaves, connection, rfl⟩
  | proceed _ turn =>
    cases Session.went_of_proceed? turn with
    | publishes _ _ _ move =>
      cases hprogress : move.progress <;> simp [Session.onProgress, hprogress] at hended
    | sends => cases hended
    | ends frame before connection _ breaks =>
      obtain rfl := SessionPhase.ended.inj hended
      exact ⟨.breaks frame before _ breaks, connection, rfl⟩

/-- **A session ends just when it leaves or breaks.** -/
theorem ended_of_acts (acts : Acts s x a r) : r.2.phase = .ended result ↔ Parts x a result := by
  constructor
  · exact fun hended => (finish_of_acts acts hended).1
  · intro hparts
    generalize hx : x = y at hparts
    generalize ha : a = b at hparts
    cases hparts with
    | leaves choice _ leaves =>
      cases acts with
      | choose other _ turn =>
        obtain ⟨-, rfl⟩ := Action.choose.inj ha
        exact Session.ended_of_leaves (hx ▸ leaves) turn
      | _ => cases ha
    | breaks frame before _ breaks =>
      subst hx
      cases acts with
      | proceed _ turn => exact Session.ended_of_breaks before breaks turn
      | _ => cases ha

theorem choose_some (here : s.session? x.name = some x) {choice : Choice}
    (h : s.step (.choose x.name choice) = some (t, events)) :
    ∃ r, x.choose? s.service choice = some r ∧ s.after r = (t, events) := by
  obtain ⟨y, hy, h⟩ := Option.bind_eq_some_iff.mp h
  obtain rfl := Option.some.inj (here.symm.trans hy)
  obtain ⟨r, hr, h⟩ := Option.bind_eq_some_iff.mp h
  exact ⟨r, hr, Option.some.inj h⟩

theorem proceed_some (here : s.session? x.name = some x)
    (h : s.step (.run (.session x.name)) = some (t, events)) :
    ∃ r, x.proceed? s.service = some r ∧ s.after r = (t, events) := by
  obtain ⟨y, hy, h⟩ := Option.bind_eq_some_iff.mp h
  obtain rfl := Option.some.inj (here.symm.trans hy)
  obtain ⟨r, hr, h⟩ := Option.bind_eq_some_iff.mp h
  exact ⟨r, hr, Option.some.inj h⟩

theorem acts_of_parts (here : s.session? x.name = some x) (parts : Parts x a result)
    (h : s.step a = some (t, events)) : ∃ r, Acts s x a r ∧ s.after r = (t, events) := by
  cases parts with
  | leaves choice =>
    obtain ⟨r, turn, after⟩ := choose_some here h
    exact ⟨r, .choose choice r turn, after⟩
  | breaks =>
    obtain ⟨r, turn, after⟩ := proceed_some here h
    exact ⟨r, .proceed r turn, after⟩

/-- **The end of a session is told just when it leaves or breaks.** -/
theorem parts_iff (h : s.step a = some (t, events)) :
    .sessionEnded name result ∈ events ↔ ∃ x, s.session? name = some x ∧ Parts x a result := by
  constructor
  · intro hended
    cases shows_of_step h with
    | other silent => exact absurd hended (silent name result)
    | session x here r acts after =>
      obtain ⟨-, rfl⟩ := Prod.ext_iff.mp after
      rw [mem_events_after, name_of_acts acts, ended_of_acts acts] at hended
      obtain ⟨rfl, parts⟩ := hended
      exact ⟨x, here, parts⟩
  · rintro ⟨x, here, parts⟩
    obtain rfl := session_name here
    obtain ⟨r, acts, after⟩ := acts_of_parts here parts h
    obtain ⟨-, rfl⟩ := Prod.ext_iff.mp after
    rw [mem_events_after]
    exact ⟨name_of_acts acts, (ended_of_acts acts).mpr parts⟩

/-! ### Failures -/

/-- The event that a session receives in a step. -/
def eventOf? (name : String) (z : Step) : Option (Except TransportError String) :=
  match z.action with
  | .choose other .receive =>
    if other = name then
      ((z.before.session? name).bind (·.connection.receive?)).bind (·.2)
    else none
  | _ => none

/-- The frame that a session tries to send in a step, and whether its connection takes it. -/
def triedIn? (name : String) (z : Step) : Option (OutboundFrame × Except TransportError Unit) :=
  match z.action with
  | .run (.session other) => if other = name then (z.before.session? name).bind Session.tries? else none
  | _ => none

/-- Receiving or sending fails in a session, for another reason than that the peer left or that
a frame was no text. -/
def Fails (name : String) (z : Step) (e : TransportError) : Prop :=
  (eventOf? name z = some (.error e) ∧ e ≠ .disconnected ∧ ∀ reason, e ≠ .malformedFrame reason) ∨
    ∃ frame, triedIn? name z = some (frame, .error e) ∧ e ≠ .disconnected

theorem eventOf?_some {z : Step} {event : Except TransportError String}
    (h : eventOf? name z = some event) : z.action = .choose name .receive ∧
      ∃ x connection, z.before.session? name = some x ∧
        x.connection.receive? = some (connection, some event) := by
  unfold eventOf? at h
  split at h
  · rename_i other asked
    obtain ⟨rfl, h⟩ := Option.ite_none_right_eq_some.mp h
    obtain ⟨⟨connection, event?⟩, h, hevent⟩ := Option.bind_eq_some_iff.mp h
    obtain ⟨x, hx, hreceive⟩ := Option.bind_eq_some_iff.mp h
    exact ⟨asked, x, connection, hx, by rw [hreceive, ← hevent]⟩
  · cases h

theorem triedIn?_some {z : Step} {frame : OutboundFrame} {result : Except TransportError Unit}
    (h : triedIn? name z = some (frame, result)) : z.action = .run (.session name) ∧
      ∃ x, z.before.session? name = some x ∧ x.phase = .sends frame ∧
        (x.connection.send frame.text).2 = result := by
  unfold triedIn? at h
  split at h
  · rename_i other asked
    obtain ⟨rfl, h⟩ := Option.ite_none_right_eq_some.mp h
    obtain ⟨x, hx, h⟩ := Option.bind_eq_some_iff.mp h
    unfold Session.tries? at h
    split at h
    · rename_i hphase
      obtain ⟨rfl, hresult⟩ := Prod.mk.inj (Option.some.inj h)
      exact ⟨asked, x, hx, hphase, hresult⟩
    · cases h
  · cases h

/-- **A session ends in failure just when it fails to receive or to send.** -/
theorem failed_iff {z : Step} {e : TransportError}
    (h : z.before.step z.action = some (z.after, z.events)) :
    .sessionEnded name (.error e) ∈ z.events ↔ Fails name z e := by
  rw [parts_iff h]
  constructor
  · rintro ⟨x, here, parts⟩
    obtain rfl := session_name here
    generalize hresult : Except.error e = result at parts
    generalize ha : z.action = a at parts
    cases parts with
    | leaves choice _ leaves =>
      subst hresult
      cases leaves with
      | fails connection _ received notLeft serious =>
        exact .inl ⟨by simp [eventOf?, ha, here, received], notLeft, serious⟩
    | breaks frame before _ breaks =>
      subst hresult
      cases breaks with
      | fails connection _ unsent notLeft =>
        exact .inr ⟨frame, by simp [triedIn?, ha, here, Session.tries?, before, unsent], notLeft⟩
  · rintro (⟨hevent, notLeft, serious⟩ | ⟨frame, htried, notLeft⟩)
    · obtain ⟨asked, x, connection, here, received⟩ := eventOf?_some hevent
      obtain rfl := session_name here
      exact ⟨x, here, asked ▸ .leaves .receive _ (.fails connection e received notLeft serious)⟩
    · obtain ⟨asked, x, here, before, unsent⟩ := triedIn?_some htried
      obtain rfl := session_name here
      have hsend : x.connection.send frame.text = ((x.connection.send frame.text).1, .error e) :=
        Prod.ext rfl unsent
      exact ⟨x, here, asked ▸ .breaks frame before _ (.fails _ e hsend notLeft)⟩

/-- How many failures the end of a session counts. -/
def failures : SessionPhase → Nat
  | .ended (.error _) => 1
  | _ => 0

theorem failures_of_running {x : Session} (h : x.isRunning = true) : failures x.phase = 0 := by
  cases hphase : x.phase with
  | ended result => simp [Session.isRunning, hphase] at h
  | _ => rfl

theorem errors_finish (v : Service) (x : Session) (result : Except TransportError Unit) :
    (x.finish v result).1.metrics.errors =
      v.metrics.errors + failures (x.finish v result).2.phase := by
  cases result <;> rfl

/-- A session counts a failure in the step in which it ends in one. -/
theorem errors_of_acts (acts : Acts s x a r) :
    r.1.metrics.errors = s.service.metrics.errors + failures r.2.phase := by
  cases acts with
  | forward _ turn =>
    have hforwarded := Session.forwarded_of_forward? turn
    rw [phase_of_forwarded hforwarded, failures_of_running (runs_of_forwarded hforwarded)]
    cases hforwarded with
    | reserves _ _ _ after | consumes _ _ _ _ _ after => exact after ▸ rfl
  | choose choice _ turn =>
    obtain ⟨hwaits, hpicked⟩ := Session.picked_of_choose? turn
    cases hpicked with
    | rests => rw [failures_of_running (by simp [Session.isRunning, hwaits])]; rfl
    | hears _ _ _ q =>
      have hnone : failures (q.phase x.principal) = 0 := by
        unfold Prompt.phase
        split <;> rfl
      rw [hnone]
      rfl
    | relays => rfl
    | ends _ connection result => exact errors_finish s.service { x with connection } result
  | proceed _ turn =>
    cases Session.went_of_proceed? turn with
    | publishes messageId phase _ move moves =>
      have hnone : failures (Session.onProgress messageId move.progress) = 0 := by
        cases move.progress <;> rfl
      rw [hnone]
      exact Service.errors_of_step? moves
    | sends => rfl
    | ends _ _ connection result => exact errors_finish s.service { x with connection } result

theorem countP_events_after (s : Server) (r : Service × Session) :
    (s.after r).2.countP Event.isFailure = failures r.2.phase := by
  rw [events_after]
  cases r.2.phase with
  | ended result => cases result <;> rfl
  | _ => rfl

/-- **Each failed session is counted once**, in the step that tells its end. -/
theorem errors_of_step (h : s.step a = some (t, events)) :
    t.service.metrics.errors = s.service.metrics.errors + events.countP Event.isFailure := by
  cases shows_of_step h with
  | session x here r acts after =>
    obtain ⟨rfl, rfl⟩ := Prod.ext_iff.mp after
    rw [countP_events_after, service_after]
    exact errors_of_acts acts
  | other silent errors =>
    have hnone : events.countP Event.isFailure = 0 := by
      rw [List.countP_eq_zero]
      intro event hevent
      cases event with
      | sessionEnded name result => exact absurd hevent (silent name result)
      | _ => exact Bool.false_ne_true
    rw [hnone, errors, Nat.add_zero]

/-- **A session whose end is told is closed.** -/
theorem closed_of_ended (h : s.step a = some (t, events)) (hended : .sessionEnded name result ∈ events) :
    ∃ y, t.session? name = some y ∧ y.phase = .ended result ∧
      y.connection.closed? = some (closeNormal, "session ended") ∧ y.connection.isLive = false := by
  obtain ⟨x, here, parts⟩ := (parts_iff h).mp hended
  obtain rfl := session_name here
  obtain ⟨r, acts, after⟩ := acts_of_parts here parts h
  obtain ⟨rfl, rfl⟩ := Prod.ext_iff.mp after
  have hphase := (ended_of_acts acts).mpr parts
  obtain ⟨-, connection, hfinish⟩ := finish_of_acts acts hphase
  have hclosed := Session.closed_finish s.service { x with connection } result
  rw [← hfinish] at hclosed
  exact ⟨r.2, session?_after here (name_of_acts acts), hclosed⟩

end Server
end DeviceRelay
