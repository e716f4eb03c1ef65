/-
# Every step of a server is the turn of one party

A step begins a call, opens a session, is a step of one call or of one session, drops one of
them, or puts bytes into a queue. Any other step leaves the calls, the sessions and the
queues alone. What is the turn of one session leaves all other sessions alone, and so does
every turn that is not of a session.

Key definitions: `Action.session?`, `Action.isBusy`, `Server.queue`, `Server.Asks`,
`Server.SessionTurn`, `Server.Turn`, `Server.Becomes`.
Key theorems: `Server.turn_of_step`, `Server.session?_setSession`, `Server.becomes_of_turn`.
-/
import DeviceRelay.Proofs.Relay.Clients
import DeviceRelay.Proofs.Server.Requests
import DeviceRelay.Proofs.Service.Letters
import DeviceRelay.Proofs.Session.Turns

namespace DeviceRelay

/-- The session whose turn an action is. -/
def Action.session? : Action → Option String
  | .run (.forward name) | .run (.session name) | .choose name _ | .peer name _
  | .dropSession name => some name
  | _ => none

/-- Whether an action may be about a queue or about one who publishes. -/
def Action.isBusy : Action → Bool
  | .run (.background _) => false
  | .run _ | .pushRaw _ _ => true
  | _ => false

namespace Server

/-- The entries that wait for a principal. -/
def queue (s : Server) (p : PrincipalId) : List (List UInt8) := s.service.relay.entries p

/-- An action asks for a call under a label. -/
inductive Asks (s : Server) : Action → String → Call → Prop where
  | direct (label : String) (call : Call) : Asks s (.call label call) label call
  | http (label : String) (r : HttpRequest) (draw : Draw) (call : Call) (rendering : Rendering)
    (plan : r.plan s.service draw = .call call rendering) : Asks s (.http label r draw) label call

/-- An action asks for a session of a principal: of the one that a program names, or of the
caller whom the token of a handshake names. -/
inductive Opens (s : Server) : Action → String → Principal → Prop where
  | direct (name : String) (p : Principal) (connection : Connection) :
    Opens s (.openSession name p connection) name p
  | shakes (name : String) (r : HttpRequest) (p : Principal) (caller : s.service.caller r = .ok p) :
    Opens s (.handshake name r) name p

/-- The turn of a session: what it does with the service and becomes. -/
inductive SessionTurn (s : Server) (x : Session) : Action → Service × Session → Prop where
  | forward (r : Service × Session) (turn : Session.Forwarded s.service x r) :
    SessionTurn s x (.run (.forward x.name)) r
  | choose (choice : Choice) (r : Service × Session) (waits : x.phase = .selects)
    (turn : Session.Chosen s.service x choice r) : SessionTurn s x (.choose x.name choice) r
  | proceed (r : Service × Session) (turn : Session.Proceeded s.service x r) :
    SessionTurn s x (.run (.session x.name)) r
  | drop : SessionTurn s x (.dropSession x.name) (x.drop s.service)
  | peer (event : PeerEvent) : SessionTurn s x (.peer x.name event)
    (s.service, { x with connection := x.connection.onPeer event })

/-- Whose turn a step is, and what it leaves alone. -/
inductive Turn (s : Server) (a : Action) (t : Server) : Prop where
  /-- Of nobody: only the use of the queues may be turned on or off. -/
  | still (nobody : a.session? = none) (quiet : a.isBusy = false) (fault : Option StorageError)
    (relay : t.service.relay = { s.service.relay with fault })
    (calls : t.calls = s.calls) (sessions : t.sessions = s.sessions)
  | begins (label : String) (origin : Origin) (call : Call) (asks : Asks s a label call)
    (new : s.call? label = none) (calls : t.calls = s.calls ++ [⟨label, origin, .begins call⟩])
    (relay : t.service.relay = s.service.relay) (sessions : t.sessions = s.sessions)
  | opens (name : String) (p : Principal) (connection : Connection) (opened : Opens s a name p)
    (new : s.session? name = none)
    (sessions : t.sessions = s.sessions ++ [{ name, principal := p, connection }])
    (relay : t.service.relay = s.service.relay) (calls : t.calls = s.calls)
  | call (label : String) (c : Running) (asked : a = .run (.call label))
    (here : s.call? label = some c) (move : Move)
    (moves : s.service.step? (.call label) c.phase = some move) (service : t.service = move.service)
    (calls : (∃ next, move.progress = .goesOn next ∧
        t.calls = s.calls.map fun other =>
          if other.label = label then { other with phase := next } else other) ∨
      ∃ ending, move.progress = .ends ending ∧ t.calls = s.calls.filter (·.label ≠ label))
    (sessions : t.sessions = s.sessions)
  | session (x : Session) (here : s.session? x.name = some x) (r : Service × Session)
    (turn : SessionTurn s x a r) (relay : t.service.relay = r.1.relay)
    (sessions : t.sessions = (s.setSession r.2).sessions) (calls : t.calls = s.calls)
  | dropCall (label : String) (asked : a = .dropCall label)
    (relay : t.service.relay = s.service.relay.abandon (.call label))
    (calls : t.calls = s.calls.filter (·.label ≠ label)) (sessions : t.sessions = s.sessions)
  | raw (recipient : PrincipalId) (bytes : List UInt8) (asked : a = .pushRaw recipient bytes)
    (relay : t.service.relay = (s.service.relay.pushRaw recipient bytes).1)
    (calls : t.calls = s.calls) (sessions : t.sessions = s.sessions)

variable {s t : Server} {a : Action}

theorem session_name {name : String} {x : Session} (h : s.session? name = some x) :
    x.name = name := by simpa using List.find?_some h

theorem turn_of_beginCall {label : String} {origin : Origin} {call : Call}
    (asks : Asks s a label call) (h : s.beginCall? label origin call = some t) : Turn s a t := by
  obtain ⟨ids, -, hnew, -, rfl⟩ := beginCall_some h
  exact .begins label origin call asks hnew rfl rfl rfl

theorem turn_of_openSession {name : String} {p : Principal} {connection : Connection}
    (opened : Opens s a name p) (h : s.openSession? name p connection = some t) : Turn s a t := by
  unfold openSession? at h
  obtain ⟨hnew, h⟩ := Option.ite_none_left_eq_some.mp h
  obtain rfl := Option.some.inj h
  exact .opens name p connection opened (Option.not_isSome_iff_eq_none.mp hnew) rfl rfl rfl

theorem service_after (s : Server) (r : Service × Session) : (s.after r).1.service = r.1 := by
  unfold after
  dsimp only
  split <;> rfl

theorem turn_of_after {x : Session} {r : Service × Session} (here : s.session? x.name = some x)
    (turn : SessionTurn s x a r) : Turn s a (s.after r).1 := by
  refine .session x here r turn ?_ ?_ ?_ <;> unfold after <;> dsimp only <;> split <;> rfl

theorem turn_of_runTask {task : Task} {events : List Event}
    (h : s.runTask? task = some (t, events)) : Turn s (.run task) t := by
  cases task with
  | call label =>
    obtain ⟨c, move, here, moves, hservice, -, hsessions, hcalls⟩ := runCall_some h
    refine .call label c rfl here move moves hservice ?_ hsessions
    rcases hcalls with ⟨next, hnext, -, hcalls⟩ | ⟨ending, hending, -, hcalls⟩
    · exact .inl ⟨next, hnext, hcalls⟩
    · exact .inr ⟨ending, hending, hcalls⟩
  | background b =>
    obtain ⟨service, hb, h⟩ := Option.map_eq_some_iff.mp h
    obtain ⟨rfl, -⟩ := Prod.mk.inj h
    refine .still rfl rfl s.service.relay.fault ?_ rfl rfl
    cases b with
    | timer id => obtain ⟨_, -, rfl⟩ := Option.map_eq_some_iff.mp hb; rfl
    | write id => obtain ⟨_, -, rfl⟩ := Option.map_eq_some_iff.mp hb; rfl
  | forward name =>
    obtain ⟨x, hx, h⟩ := Option.bind_eq_some_iff.mp h
    obtain ⟨r, hr, h⟩ := Option.bind_eq_some_iff.mp h
    obtain rfl := congrArg Prod.fst (Option.some.inj h)
    obtain rfl := session_name hx
    exact turn_of_after hx (.forward r (Session.forwarded_of_forward? hr))
  | session name =>
    obtain ⟨x, hx, h⟩ := Option.bind_eq_some_iff.mp h
    obtain ⟨r, hr, h⟩ := Option.bind_eq_some_iff.mp h
    obtain rfl := congrArg Prod.fst (Option.some.inj h)
    obtain rfl := session_name hx
    exact turn_of_after hx (.proceed r (Session.proceeded_of_proceed? hr))

/-- **Every step is the turn of one party.** -/
theorem turn_of_step {events : List Event} (h : s.step a = some (t, events)) : Turn s a t := by
  cases a with
  | call label call =>
    obtain ⟨t', ht, h⟩ := Option.map_eq_some_iff.mp h
    obtain ⟨rfl, -⟩ := Prod.mk.inj h
    exact turn_of_beginCall (.direct label call) ht
  | http label r draw =>
    simp only [step, beginHttp?] at h
    split at h
    · obtain ⟨rfl, -⟩ := Prod.mk.inj (Option.some.inj h)
      exact .still rfl rfl s.service.relay.fault rfl rfl rfl
    · rename_i call rendering hplan
      obtain ⟨t', ht, h⟩ := Option.map_eq_some_iff.mp h
      obtain ⟨rfl, -⟩ := Prod.mk.inj h
      exact turn_of_beginCall (.http label r draw call rendering hplan) ht
  | openSession name p connection =>
    obtain ⟨t', ht, h⟩ := Option.map_eq_some_iff.mp h
    obtain ⟨rfl, -⟩ := Prod.mk.inj h
    exact turn_of_openSession (.direct name p connection) ht
  | handshake name r =>
    simp only [step, shake?] at h
    split at h
    · obtain ⟨rfl, -⟩ := Prod.mk.inj (Option.some.inj h)
      exact .still rfl rfl s.service.relay.fault rfl rfl rfl
    · rename_i p hcaller
      obtain ⟨t', ht, h⟩ := Option.map_eq_some_iff.mp h
      obtain ⟨rfl, -⟩ := Prod.mk.inj h
      exact turn_of_openSession (.shakes name r p hcaller) ht
  | run task => exact turn_of_runTask h
  | choose name choice =>
    obtain ⟨x, hx, h⟩ := Option.bind_eq_some_iff.mp h
    obtain ⟨r, hr, h⟩ := Option.bind_eq_some_iff.mp h
    obtain rfl := congrArg Prod.fst (Option.some.inj h)
    obtain rfl := session_name hx
    obtain ⟨hwaits, turn⟩ := Session.chosen_of_choose? hr
    exact turn_of_after hx (.choose choice r hwaits turn)
  | peer name event =>
    obtain ⟨x, hx, h⟩ := Option.map_eq_some_iff.mp h
    obtain ⟨rfl, -⟩ := Prod.mk.inj h
    obtain rfl := session_name hx
    exact .session x hx _ (.peer event) rfl rfl rfl
  | dropSession name =>
    obtain ⟨x, hx, h⟩ := Option.map_eq_some_iff.mp h
    obtain ⟨rfl, -⟩ := Prod.mk.inj h
    obtain rfl := session_name hx
    exact .session x hx _ .drop rfl rfl rfl
  | dropCall label =>
    obtain ⟨rfl, -⟩ := Prod.mk.inj (Option.some.inj h)
    exact .dropCall label rfl rfl rfl rfl
  | shutDown | setStore delay fault | setQueues fault | refill common own =>
    obtain ⟨rfl, -⟩ := Prod.mk.inj (Option.some.inj h)
    exact .still rfl rfl _ rfl rfl rfl
  | link user device =>
    simp only [step] at h
    split at h <;> obtain ⟨rfl, -⟩ := Prod.mk.inj (Option.some.inj h) <;>
      exact .still rfl rfl s.service.relay.fault rfl rfl rfl
  | pushRaw recipient bytes =>
    obtain ⟨rfl, -⟩ := Prod.mk.inj (Option.some.inj h)
    exact .raw recipient bytes rfl rfl rfl rfl
  | tick moment =>
    simp only [step] at h
    split at h
    · obtain ⟨rfl, -⟩ := Prod.mk.inj (Option.some.inj h)
      exact .still rfl rfl s.service.relay.fault rfl rfl rfl
    · cases h

/-! ### The sessions after a turn -/

theorem session?_setSession (s : Server) (x : Session) (name : String) :
    (s.setSession x).session? name =
      if name = x.name then (s.session? name).map fun _ => x else s.session? name := by
  unfold session? setSession
  rw [Keyed.find?_map s.sessions (·.name) (fun y => by split <;> simp_all)]
  cases hfind : s.sessions.find? (·.name = name) with
  | none => simp
  | some y =>
    have hy : y.name = name := by simpa using List.find?_some hfind
    simp only [Option.map_some, hy]
    split <;> rfl

theorem SessionTurn.session? {x : Session} {r : Service × Session} (h : SessionTurn s x a r) :
    a.session? = some x.name := by
  cases h <;> rfl

theorem SessionTurn.same {x : Session} {r : Service × Session} (h : SessionTurn s x a r) :
    x.Same r.2 := by
  cases h with
  | forward _ turn => exact turn.same
  | choose _ _ _ turn => exact turn.same
  | proceed _ turn => exact turn.same
  | drop => exact x.same_drop s.service
  | peer => exact ⟨rfl, rfl⟩

/-- What becomes of the session of some name in a step. -/
inductive Becomes (s : Server) (a : Action) (t : Server) (name : String) : Prop where
  | acts (x : Session) (here : s.session? name = some x) (r : Service × Session)
    (turn : SessionTurn s x a r) (relay : t.service.relay = r.1.relay)
    (after : t.session? name = some r.2)
  | rests (apart : a.session? ≠ some name) (after : t.session? name = s.session? name)
  | joins (apart : a.session? ≠ some name) (new : s.session? name = none) (p : Principal)
    (connection : Connection) (after : t.session? name = some { name, principal := p, connection })
    (opened : Opens s a name p)

theorem Asks.session? {label : String} {call : Call} (h : Asks s a label call) :
    a.session? = none := by
  cases h <;> rfl

theorem Asks.quiet {label : String} {call : Call} (h : Asks s a label call) : a.isBusy = false := by
  cases h <;> rfl

theorem Opens.session? {name : String} {p : Principal} (h : Opens s a name p) :
    a.session? = none := by
  cases h <;> rfl

theorem Opens.quiet {name : String} {p : Principal} (h : Opens s a name p) : a.isBusy = false := by
  cases h <;> rfl

/-- **A session changes in its own turn only.** -/
theorem becomes_of_turn (T : Turn s a t) (name : String) : Becomes s a t name := by
  have rests (nobody : a.session? = none) (sessions : t.sessions = s.sessions) :
      Becomes s a t name :=
    .rests (by simp [nobody]) (by rw [session?, session?, sessions])
  cases T with
  | still nobody _ _ _ _ sessions => exact rests nobody sessions
  | begins _ _ _ asks _ _ _ sessions => exact rests asks.session? sessions
  | call _ _ asked _ _ _ _ _ sessions => exact rests (asked ▸ rfl) sessions
  | dropCall _ asked _ _ sessions => exact rests (asked ▸ rfl) sessions
  | raw _ _ asked _ _ sessions => exact rests (asked ▸ rfl) sessions
  | opens other p connection opened new sessions =>
    have nobody := opened.session?
    have happ : t.session? name = (s.session? name).or
        (if other = name then some { name := other, principal := p, connection } else none) := by
      unfold session?
      rw [sessions, List.find?_append]
      simp [List.find?_singleton]
    by_cases hname : other = name
    · subst hname
      exact .joins (by simp [nobody]) new p connection (by simpa [new] using happ) opened
    · exact .rests (by simp [nobody]) (by simpa [hname] using happ)
  | session x here r turn relay sessions =>
    have hset : t.session? name = (s.setSession r.2).session? name := by
      rw [session?, sessions]; rfl
    rw [session?_setSession, turn.same.name] at hset
    by_cases hname : name = x.name
    · subst hname
      exact .acts x here r turn relay (by simpa [here] using hset)
    · refine .rests ?_ (by simpa [hname] using hset)
      rw [turn.session?]
      exact fun h => hname (Option.some.inj h).symm

end Server
end DeviceRelay
