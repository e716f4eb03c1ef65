/-
# What is answered and sent tells nothing of why the store failed

Two runs in which the store of pairings fails at the same calls for other causes have the same
answers over HTTP, accept and refuse the same handshakes, and send the same frames to the same
sessions. They are possible under the same schedule, and the schedule makes the same choices.

Key definitions: `Action.veiled`, `Event.veiled`, `Server.veiled`, `Server.SameButCause`,
`Server.seen`.
Key theorems: `Machine.run_alike`, `Server.step_veiled`, `Server.ready?_veiled`,
`Server.undisclosed`.
-/
import DeviceRelay.Proofs.Runs
import DeviceRelay.Proofs.Service.Causes
import DeviceRelay.Server
import Mathlib.Data.List.Forall2

namespace DeviceRelay

/-! ### Sessions -/

namespace Session

/-- What a session and its service became, without the causes. -/
def veil (r : Service × Session) : Service × Session := (r.1.veiled, r.2)

variable (s : Service) (x : Session)

theorem veil_veiled : veil (s.veiled, x) = veil (s, x) :=
  Prod.ext s.veiled_veiled rfl

theorem forward?_veiled : (x.forward? s.veiled).map veil = (x.forward? s).map veil := by
  unfold forward?
  dsimp only
  split
  · rfl
  · cases x.forwarder with
    | reserves =>
      dsimp only
      split
      · rfl
      · exact congrArg some (veil_veiled { s with
          relay := s.relay.begin (.session x.name) x.principal.id
            (s.config.relay.consumeTimeout * 1000) true } _)
    | consumes =>
      dsimp only
      rw [show s.veiled.relay = s.relay from rfl, Service.clock_veiled]
      cases s.relay.run? s.clock.now (.session x.name) with
      | none => rfl
      | some r =>
        obtain ⟨relay, consumed?⟩ := r
        rcases consumed? with _ | (_ | _ | _ | _ | _) <;>
          exact congrArg some (veil_veiled { s with relay } _)
    | stopped => rfl

theorem finish_veiled (result : Except TransportError Unit) :
    veil (x.finish s.veiled result) = veil (x.finish s result) :=
  veil_veiled (x.finish s result).1 _

theorem takeEvent_veiled (event : Except TransportError String) :
    veil (x.takeEvent s.veiled event) = veil (x.takeEvent s event) := by
  unfold takeEvent
  split
  · exact veil_veiled s _
  · exact veil_veiled s _
  · exact finish_veiled s x _
  · exact finish_veiled s x _

theorem choose?_veiled (choice : Choice) :
    (x.choose? s.veiled choice).map veil = (x.choose? s choice).map veil := by
  unfold choose?
  split
  · cases choice with
    | gone =>
      dsimp only
      split
      · rfl
      · exact congrArg some (finish_veiled s x _)
    | receive =>
      dsimp only
      rw [Option.map_map, Option.map_map]
      congr 1
      funext r
      obtain ⟨connection, event | _⟩ := r
      · exact veil_veiled s _
      · exact takeEvent_veiled s _ _
    | relay =>
      dsimp only
      split
      · exact congrArg some (veil_veiled
          { s with metrics := { s.metrics with delivered := s.metrics.delivered + 1 } } _)
      · split
        · exact congrArg some (finish_veiled s x _)
        · rfl
  · rfl

/-- **Publishing fails with the same reply, whatever the cause.** -/
theorem replyTo_veiled (messageId : String) (ending : Ending) :
    replyTo messageId ending.veiled = replyTo messageId ending := by
  cases ending with
  | failed e => exact Reply.ofError_veiled e
  | _ => rfl

/-- A session after a step of its publishing. -/
def published (x : Session) (messageId : String) (m : Move) : Service × Session :=
  match m.progress with
  | .goesOn phase => (m.service, { x with phase := .publishes messageId phase })
  | .ends ending =>
    (m.service, { x with phase := .sends (.response (replyTo messageId ending)) })

theorem published_veiled (messageId : String) (m : Move) :
    veil (published x messageId m) = veil (published x messageId m.veiled) := by
  obtain ⟨v, progress, started⟩ := m
  cases progress with
  | goesOn next => exact (veil_veiled v _).symm
  | ends ending =>
    dsimp only [published, Move.veiled, Progress.veiled]
    rw [replyTo_veiled]
    exact (veil_veiled v _).symm

theorem proceed?_veiled : (x.proceed? s.veiled).map veil = (x.proceed? s).map veil := by
  unfold proceed?
  split
  · rename_i messageId phase _
    rw [Option.map_map, Option.map_map]
    have hmoves := s.step?_veiled (.session x.name) phase
    exact Move.map_eq_of_veiled hmoves (veil ∘ published x messageId)
      (published_veiled x messageId) (published_veiled x messageId)
  · rename_i frame _
    refine congrArg some ?_
    unfold sendFrame
    dsimp only
    split
    · split
      · exact veil_veiled s _
      · exact finish_veiled s _ _
    · exact finish_veiled s _ _
    · exact finish_veiled s _ _
  · rfl

theorem drop_veiled : veil (x.drop s.veiled) = veil (x.drop s) := by
  unfold drop
  split
  · simp [veil, Service.abandon_veiled]
  · simp [veil]

end Session

/-! ### Servers -/

/-- An action without the cause for which it lets the store fail. -/
def Action.veiled : Action → Action
  | .setStore delay fault => .setStore delay (fault.map StoreFault.veiled)
  | a => a

/-- An event without the cause for which a direct call failed. -/
def Event.veiled : Event → Event
  | .returned label ending => .returned label ending.veiled
  | event => event

namespace Server

/-- A server without the causes for which its store fails. -/
def veiled (s : Server) : Server := { s with service := s.service.veiled }

/-- What a step led to, without the causes. -/
def veil (r : Server × List Event) : Server × List Event := (r.1.veiled, r.2.map Event.veiled)

variable (s : Server)

@[simp] theorem veiled_veiled : s.veiled.veiled = s.veiled := by
  simp [veiled]

theorem veil_veiled (events : List Event) : veil (s.veiled, events) = veil (s, events) :=
  Prod.ext s.veiled_veiled rfl

/-- Servers that differ in their services differ in causes only, if these do. -/
theorem veil_eq {t t' : Server} (service : t'.service.veiled = t.service.veiled)
    (calls : t'.calls = t.calls) (sessions : t'.sessions = t.sessions) (tasks : t'.tasks = t.tasks)
    (drawn : t'.drawn = t.drawn) (events : List Event) : veil (t', events) = veil (t, events) := by
  simp [veil, veiled, service, calls, sessions, tasks, drawn]

/-- The same for two states of the service alone. -/
theorem withService_veiled {f g : Service → Service}
    (service : (g s.service.veiled).veiled = (f s.service).veiled) (events : List Event) :
    veil (s.veiled.withService g, events) = veil (s.withService f, events) := by
  refine veil_eq service ?_ ?_ ?_ ?_ events
  all_goals rfl

theorem plan_veiled (r : HttpRequest) (draw : Draw) :
    r.plan s.veiled.service draw = r.plan s.service draw := rfl

theorem caller_veiled (r : HttpRequest) : s.veiled.service.caller r = s.service.caller r := rfl

theorem beginCall?_veiled (label : String) (origin : Origin) (call : Call) :
    s.veiled.beginCall? label origin call = (s.beginCall? label origin call).map veiled := by
  have hcall : s.veiled.call? label = s.call? label := rfl
  have hdrawn : s.veiled.drawn = s.drawn := rfl
  unfold beginCall?
  rw [hcall, hdrawn]
  dsimp only
  split <;> split <;> rfl

theorem beginHttp?_veiled (label : String) (r : HttpRequest) (draw : Draw) :
    (s.veiled.beginHttp? label r draw).map veil = (s.beginHttp? label r draw).map veil := by
  unfold beginHttp?
  rw [plan_veiled]
  cases r.plan s.service draw with
  | answer response => exact congrArg some (s.veil_veiled _)
  | call call rendering =>
    dsimp only
    rw [beginCall?_veiled]
    cases s.beginCall? label (.http r.method rendering) call with
    | none => rfl
    | some t => exact congrArg some (t.veil_veiled _)

theorem openSession?_veiled (name : String) (p : Principal) (connection : Connection) :
    s.veiled.openSession? name p connection = (s.openSession? name p connection).map veiled := by
  have hsession : s.veiled.session? name = s.session? name := rfl
  unfold openSession?
  rw [hsession]
  split <;> rfl

theorem shake?_veiled (name : String) (r : HttpRequest) :
    (s.veiled.shake? name r).map veil = (s.shake? name r).map veil := by
  unfold shake?
  rw [caller_veiled]
  cases s.service.caller r with
  | error e => exact congrArg some (s.veil_veiled _)
  | ok p =>
    dsimp only
    rw [openSession?_veiled]
    cases s.openSession? name p (.webSocket {}) with
    | none => rfl
    | some t => exact congrArg some (t.veil_veiled _)

/-- The server after a step of a call. -/
def moved (label : String) (c : Running) (m : Move) : Server × List Event :=
  let started := m.started.toList.map Task.background
  let after : Server := { s with service := m.service, tasks := s.tasks ++ started }
  match m.progress with
  | .goesOn phase =>
    let calls := s.calls.map fun (other : Running) =>
      if other.label = label then { other with phase } else other
    ({ after with calls }, [])
  | .ends ending =>
    let calls := s.calls.filter (·.label ≠ label)
    ({ after with calls }.endTask (.call label), [endEvent label ending c.origin])

theorem runCall?_eq (label : String) :
    s.runCall? label = (s.call? label).bind fun c =>
      (s.service.step? (.call label) c.phase).map (s.moved label c) := by
  unfold runCall? moved
  cases s.call? label with
  | none => rfl
  | some c =>
    cases hmove : s.service.step? (.call label) c.phase with
    | none => simp [hmove]
    | some m => cases hprogress : m.progress <;> simp [hmove, hprogress]

/-- **The end of a call shows no cause over HTTP.** -/
theorem endEvent_veiled (label : String) (ending : Ending) (origin : Origin) :
    (endEvent label ending.veiled origin).veiled = (endEvent label ending origin).veiled := by
  cases origin with
  | direct => cases ending <;> simp [endEvent, Event.veiled, Ending.veiled]
  | http method rendering =>
    dsimp only [endEvent, Event.veiled]
    rw [Rendering.render_veiled]

theorem moved_veiled (label : String) (c : Running) (m : Move) :
    veil (s.moved label c m) = veil (s.veiled.moved label c m.veiled) := by
  obtain ⟨v, progress, started⟩ := m
  cases progress with
  | goesOn next => simp [moved, veil, veiled, Move.veiled, Progress.veiled]
  | ends ending =>
    simp [moved, veil, veiled, Move.veiled, Progress.veiled, endTask, endEvent_veiled]

theorem runCall?_veiled (label : String) :
    (s.veiled.runCall? label).map veil = (s.runCall? label).map veil := by
  have hcall : s.veiled.call? label = s.call? label := rfl
  rw [runCall?_eq, runCall?_eq, hcall]
  cases s.call? label with
  | none => rfl
  | some c =>
    dsimp only [Option.bind_some]
    rw [Option.map_map, Option.map_map]
    refine Move.map_eq_of_veiled (s.service.step?_veiled (.call label) c.phase)
      (veil ∘ s.veiled.moved label c) (fun m => ?_) (s.moved_veiled label c)
    have hmoved := s.veiled.moved_veiled label c m
    rwa [veiled_veiled] at hmoved

theorem after_veiled {r r' : Service × Session} (h : Session.veil r' = Session.veil r) :
    veil (s.veiled.after r') = veil (s.after r) := by
  obtain ⟨v, x⟩ := r
  obtain ⟨v', x'⟩ := r'
  obtain ⟨hv, rfl⟩ := Prod.mk.inj h
  unfold after
  dsimp only
  cases x'.phase <;> simp [veil, veiled, endSessionTasks, endTask, setSession, hv]

theorem acts_veiled (name : String) {f : Service → Session → Option (Service × Session)}
    (hf : ∀ v x, (f (Service.veiled v) x).map Session.veil = (f v x).map Session.veil) :
    (do return s.veiled.after (← f s.veiled.service (← s.veiled.session? name))).map veil =
      (do return s.after (← f s.service (← s.session? name))).map veil := by
  have hsession : s.veiled.session? name = s.session? name := rfl
  rw [hsession]
  cases s.session? name with
  | none => rfl
  | some x =>
    have hacts := hf s.service x
    have hservice : s.veiled.service = s.service.veiled := rfl
    simp only [Option.bind_eq_bind, Option.bind_some, hservice]
    cases hr' : f s.service.veiled x with
    | none =>
      rw [hr'] at hacts
      rw [Option.map_eq_none_iff.mp hacts.symm]
      rfl
    | some r' =>
      rw [hr'] at hacts
      obtain ⟨r, hr, hsame⟩ := Option.map_eq_some_iff.mp hacts.symm
      rw [hr]
      exact congrArg some (s.after_veiled hsame.symm)

theorem runTask?_veiled (task : Task) :
    (s.veiled.runTask? task).map veil = (s.runTask? task).map veil := by
  cases task with
  | call label => exact s.runCall?_veiled label
  | background b =>
    have hservice : s.veiled.service = s.service.veiled := rfl
    dsimp only [runTask?]
    rw [hservice, Service.runBackground?_veiled]
    cases s.service.runBackground? b with
    | none => rfl
    | some v =>
      refine congrArg some (veil_eq ?service ?_ ?_ ?_ ?_ _)
      case service => exact v.veiled_veiled
      all_goals rfl
  | forward name => exact s.acts_veiled name fun v x => Session.forward?_veiled v x
  | session name => exact s.acts_veiled name fun v x => Session.proceed?_veiled v x

/-- **Steps differ in causes only, if what was done before does.** -/
theorem step_veiled (a : Action) : (s.veiled.step a.veiled).map veil = (s.step a).map veil := by
  cases a with
  | call label call =>
    dsimp only [step, Action.veiled]
    rw [beginCall?_veiled]
    cases s.beginCall? label .direct call with
    | none => rfl
    | some t => exact congrArg some (t.veil_veiled _)
  | http label r draw => exact s.beginHttp?_veiled label r draw
  | openSession name p connection =>
    dsimp only [step, Action.veiled]
    rw [openSession?_veiled]
    cases s.openSession? name p connection with
    | none => rfl
    | some t => exact congrArg some (t.veil_veiled _)
  | handshake name r => exact s.shake?_veiled name r
  | run task => exact s.runTask?_veiled task
  | choose name choice =>
    exact s.acts_veiled (f := fun v x => x.choose? v choice) name
      fun v x => Session.choose?_veiled v x choice
  | peer name event =>
    have hsession : s.veiled.session? name = s.session? name := rfl
    dsimp only [step, Action.veiled]
    rw [hsession]
    cases s.session? name with
    | none => rfl
    | some x => exact congrArg some (veil_veiled (s.setSession _) _)
  | dropCall label =>
    refine congrArg some (veil_eq ?service ?_ ?_ ?_ ?_ _)
    case service => exact (s.service.abandon (.call label)).veiled_veiled
    all_goals rfl
  | dropSession name =>
    have hsession : s.veiled.session? name = s.session? name := rfl
    dsimp only [step, Action.veiled]
    rw [hsession]
    cases s.session? name with
    | none => rfl
    | some x =>
      obtain ⟨hservice, hx⟩ := Prod.mk.inj (Session.drop_veiled s.service x)
      refine congrArg some (veil_eq ?service ?_ ?sessions ?_ ?_ _)
      case service => exact hservice
      case sessions => exact congrArg (fun x => (s.setSession x).sessions) hx
      all_goals rfl
  | shutDown =>
    refine congrArg some (s.withService_veiled ?_ _)
    have hshut := s.service.pairing.shutDown_veiled
    simp [Service.veiled, hshut]
  | setStore delay fault =>
    refine congrArg some (s.withService_veiled ?_ _)
    have hfault : (fault.map StoreFault.veiled).map StoreFault.veiled =
        fault.map StoreFault.veiled := by
      cases fault <;> simp
    simp only [Service.veiled, PairingStore.veiled, Coordinator.veiled_veiled, hfault]
  | setQueues fault =>
    exact congrArg some (s.withService_veiled (Service.veiled_veiled
      { s.service with relay := { s.service.relay with fault } }) _)
  | link user device =>
    have hedges : s.veiled.service.store.edges = s.service.store.edges := rfl
    dsimp only [step, Action.veiled]
    rw [hedges]
    cases s.service.store.edges.create? user device with
    | none => exact congrArg some (s.veil_veiled _)
    | some edges =>
      exact congrArg some (s.withService_veiled (Service.veiled_veiled
        { s.service with store := { s.service.store with edges } }) _)
  | pushRaw recipient bytes =>
    exact congrArg some (s.withService_veiled (Service.veiled_veiled
      { s.service with relay := (s.service.relay.pushRaw recipient bytes).1 }) _)
  | refill common own =>
    exact congrArg some (s.withService_veiled (Service.veiled_veiled
      { s.service with limits := s.service.limits.refill common own }) _)
  | tick moment =>
    have hclock : s.veiled.service.clock = s.service.clock := rfl
    dsimp only [step, Action.veiled]
    rw [hclock]
    split
    · exact congrArg some (s.withService_veiled (Service.veiled_veiled
        { s.service with clock := { s.service.clock with now := moment } }) _)
    · rfl

theorem isSome_step_veiled (a : Action) : (s.veiled.step a.veiled).isSome = (s.step a).isSome := by
  have hstep := congrArg Option.isSome (s.step_veiled a)
  rwa [Option.isSome_map, Option.isSome_map] at hstep

theorem actionsOf_veiled {task : Task} {a : Action} (h : a ∈ actionsOf task) : a.veiled = a := by
  cases task with
  | session name =>
    simp only [actionsOf, List.mem_cons, List.not_mem_nil, or_false] at h
    rcases h with rfl | rfl | rfl | rfl <;> rfl
  | _ =>
    obtain rfl := List.mem_singleton.mp h
    rfl

/-- **The schedule makes the same choice.** -/
theorem ready?_veiled : s.veiled.ready? = s.ready? := by
  have htasks : (((s.service.relay.ready? s.service.clock.now).toList.map taskOf ++ s.tasks).flatMap
      actionsOf).filter (fun a => (s.veiled.step a).isSome) =
        (((s.service.relay.ready? s.service.clock.now).toList.map taskOf ++ s.tasks).flatMap
          actionsOf).filter fun a => (s.step a).isSome := by
    refine List.filter_congr fun a ha => ?_
    obtain ⟨task, -, ha⟩ := List.mem_flatMap.mp ha
    have hstep := s.isSome_step_veiled a
    rwa [actionsOf_veiled ha] at hstep
  unfold ready?
  rw [← List.head?_filter, ← List.head?_filter]
  exact congrArg List.head? htasks

theorem nextDue?_veiled : s.veiled.nextDue? = s.nextDue? :=
  congrArg (fun due? : Option Nat => (s.calls.filterMap (·.phase.due?) ++ due?.toList).min?)
    s.service.nextDue?_veiled

/-! ### Runs -/

/-- Two actions are the same, or they let the store fail for two causes. -/
inductive SameButCause : Action → Action → Prop where
  | same (a : Action) : SameButCause a a
  | fails (delay : Nat) (cause cause' : StorageError) :
    SameButCause (.setStore delay (some (.error cause))) (.setStore delay (some (.error cause')))

theorem SameButCause.veiled {a a' : Action} (h : SameButCause a a') : a'.veiled = a.veiled := by
  cases h <;> rfl

/-- Whether an event is seen from outside: all are but the ends of calls that a program makes
itself. -/
def isOutward : Event → Bool
  | .returned _ _ => false
  | _ => true

/-- What is seen of a run from outside: the events, and the frames sent to each session. -/
def seen (r : Server × List Event) : List Event × List (String × List SocketFrame) :=
  (r.2.filter isOutward, r.1.sessions.map fun x => (x.name, x.connection.sent))

/-- **No cause is seen from outside.** -/
theorem seen_veil (r : Server × List Event) : seen (veil r) = seen r := by
  have hkind : isOutward ∘ Event.veiled = isOutward := by
    funext event
    cases event <;> rfl
  have hevents : (r.2.map Event.veiled).filter isOutward = r.2.filter isOutward := by
    rw [List.filter_map, hkind]
    refine (List.map_congr_left fun event hevent => ?_).trans (List.map_id _)
    have houtward := (List.mem_filter.mp hevent).2
    cases event with
    | returned => cases houtward
    | _ => rfl
  exact Prod.ext hevents rfl

/-- What two runs have in common. -/
structure Undisclosed (s : Server) (actions actions' : List Action) : Prop where
  /-- The one is possible just if the other is, and the same is seen of both. -/
  seen : (machine.run s actions').map seen = (machine.run s actions).map seen
  /-- The schedule goes on with the same action. -/
  ready : (machine.run s actions').map (·.1.ready?) = (machine.run s actions).map (·.1.ready?)
  /-- It waits until the same moment. -/
  due : (machine.run s actions').map (·.1.nextDue?) = (machine.run s actions).map (·.1.nextDue?)

/-- Runs of actions that are the same but for causes differ in causes only. -/
theorem run_veiled {actions actions' : List Action}
    (alike : List.Forall₂ SameButCause actions actions') :
    (machine.run s actions').map veil = (machine.run s actions).map veil := by
  refine Machine.run_alike (f := veiled) (g := Event.veiled) (P := fun _ => True)
    (fun _ _ _ _ _ _ => trivial) (fun t t' a a' _ ht ha => ?_) trivial rfl alike
  have hsteps := t'.step_veiled a'
  rw [ht, ha.veiled] at hsteps
  exact hsteps.symm.trans (t.step_veiled a)

/-- What is told of a run without the causes is the same for both. -/
theorem map_run_of_veiled {τ : Type} {told : Server × List Event → τ}
    {actions actions' : List Action} (alike : List.Forall₂ SameButCause actions actions')
    (h : ∀ r, told (veil r) = told r) :
    (machine.run s actions').map told = (machine.run s actions).map told := by
  have htold : told = told ∘ veil := funext fun r => (h r).symm
  rw [htold, ← Option.map_map, ← Option.map_map, s.run_veiled alike]

/-- **Nothing that is answered or sent, and no choice of the schedule, depends on why the store
of pairings failed**, in any state and for any actions. -/
theorem undisclosed {actions actions' : List Action}
    (alike : List.Forall₂ SameButCause actions actions') : Undisclosed s actions actions' where
  seen := s.map_run_of_veiled alike seen_veil
  ready := s.map_run_of_veiled alike fun r => r.1.ready?_veiled
  due := s.map_run_of_veiled alike fun r => r.1.nextDue?_veiled

/-! ### An outage -/

def tenant : Principal := ⟨⟨1⟩, "alice", false⟩

def lantern : Principal := ⟨⟨2⟩, "lamp", true⟩

/-- A flat with a user and a device. -/
def flat : Config where
  principals := [⟨tenant, "t-alice"⟩, ⟨lantern, "t-lamp"⟩]

def flatStart : Server := (ofConfig flat 0).toOption.get rfl

/-- A request with a token and a body. -/
def inquiry (method target token body : String) : HttpRequest where
  method := method
  target := target
  authorization := some (Utf8.encode ("Bearer " ++ token).toList)
  contentType := some (Utf8.encode "application/json".toList)
  body := Utf8.encode body.toList

/-- A user begins a session and asks for a device, which accepts. -/
def courtship : List Action :=
  [.openSession "a" tenant (.direct {}),
    .http "pair" (inquiry "POST" "/devices/pair" "t-alice" "\x7b\"device_id\":2\x7d") ⟨⟨0⟩, "c"⟩,
    .run (.call "pair"), .run (.call "pair"),
    .http "yes" (inquiry "POST" "/devices/pair/requests" "t-lamp"
      ("\x7b\"request_uuid\":\"00000000000000000000000000000000\"," ++
        "\"action\":\"accept\"\x7d")) ⟨⟨1⟩, "c"⟩, .run (.call "yes")]

/-- The pairing is recorded, the user asks for its devices, and writes to one in its session. -/
def aftermath : List Action :=
  [.run (.background (.write ⟨0⟩)), .run (.call "yes"), .run (.call "pair"),
    .http "list" (inquiry "GET" "/devices" "t-alice" "") ⟨⟨2⟩, "c"⟩, .run (.call "list"),
    .peer "a" (.direct (.text ("\x7b\"request_type\":\"enqueue_request\",\"message_id\":\"m\"," ++
      "\"target_user_id\":2,\"data\":null\x7d"))),
    .choose "a" .receive, .run (.session "a"), .run (.session "a")]

/-- The store fails for a cause before the pairing is recorded. -/
def outage (cause : StorageError) : List Action :=
  courtship ++ .setStore 0 (some (.error cause)) :: aftermath

/-- The statuses of the responses, and how many frames were sent. -/
def glance (r : Server × List Event) : List Nat × List Nat :=
  (r.2.filterMap fun
      | .responded _ response => some response.status
      | _ => none,
    r.1.sessions.map fun x => x.connection.sent.length)

/-- When the store fails for two causes, the same is seen: two calls fail over HTTP and one in a
session. -/
theorem undisclosed_of_outage :
    List.Forall₂ SameButCause (outage (.database "disk full")) (outage (.migration "7")) ∧
      (machine.run flatStart (outage (.database "disk full"))).map glance =
        some ([500, 200, 500], [1]) ∧
      Undisclosed flatStart (outage (.database "disk full")) (outage (.migration "7")) := by
  have same (actions : List Action) : List.Forall₂ SameButCause actions actions :=
    List.forall₂_same.mpr fun a _ => .same a
  have alike : List.Forall₂ SameButCause (outage (.database "disk full"))
      (outage (.migration "7")) :=
    List.rel_append (same courtship) (.cons (.fails 0 _ _) (same aftermath))
  exact ⟨alike, by decide +kernel, undisclosed flatStart alike⟩

end Server
end DeviceRelay
