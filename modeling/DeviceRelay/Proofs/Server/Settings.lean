/-
# The configuration and the directory stay as they are

The service of a server changes in the turn of a call, of a timer or a recording, or of a
session, and when a session begins. What is done to it from outside leaves the counters alone.
None of this touches the configuration or the directory, so both are in
every state of a run what they were at its start.

Key definitions: `Service.settings`, `Server.ServiceTurn`.
Key theorems: `Service.settings_of_step?`, `Server.serviceTurn_of_step`,
`Server.settings_of_step`, `Server.settings_of_history`.
-/
import DeviceRelay.Proofs.Server.Turns
import DeviceRelay.Proofs.Service.Lasting

namespace DeviceRelay

/-! ### Steps of a call -/

namespace Service

/-- What a service was set up with. -/
def settings (s : Service) : Config × Directory := (s.config, s.directory)

variable {s : Service} {party : Party} {phase : Phase} {m : Move}

/-- **No step of a call changes the settings.** -/
theorem settings_of_step? (h : s.step? party phase = some m) :
    m.service.settings = s.settings :=
  congrArg (fun l => (l.config, l.directory)) (lasting_of_step? h)

end Service

/-! ### All steps -/

namespace Server

/-- What a step does to the service. -/
inductive ServiceTurn (s : Server) (a : Action) : Service → Prop where
  | call (label : String) (asked : a = .run (.call label)) (c : Running)
    (here : s.call? label = some c) (move : Move)
    (moves : s.service.step? (.call label) c.phase = some move) : ServiceTurn s a move.service
  | session (x : Session) (here : s.session? x.name = some x) (r : Service × Session)
    (turn : SessionTurn s x a r) : ServiceTurn s a r.1
  | opens (name : String) (p : Principal) (opened : Opens s a name p) :
    ServiceTurn s a (Session.countStart s.service)
  /-- The counters rest, like the settings. -/
  | other (clock : Clock) (store : PairingStore) (pairing : Coordinator Party)
    (relay : Relay Party) (limits : RateLimits) :
    ServiceTurn s a { s.service with clock, store, pairing, relay, limits }

variable {start s t : Server} {a : Action} {events : List Event} {steps : List Step}

theorem ServiceTurn.rests : ServiceTurn s a s.service :=
  .other s.service.clock s.service.store s.service.pairing s.service.relay s.service.limits

theorem serviceTurn_of_beginCall {label : String} {origin : Origin} {call : Call}
    (h : s.beginCall? label origin call = some t) : ServiceTurn s a t.service := by
  obtain ⟨_, -, -, -, rfl⟩ := beginCall_some h
  exact .rests

theorem serviceTurn_of_openSession {name : String} {p : Principal} {connection : Connection}
    (opened : Opens s a name p) (h : s.openSession? name p connection = some t) :
    ServiceTurn s a t.service := by
  unfold openSession? at h
  obtain ⟨-, h⟩ := Option.ite_none_left_eq_some.mp h
  obtain rfl := Option.some.inj h
  exact .opens name p opened

theorem serviceTurn_of_after {x : Session} (here : s.session? x.name = some x)
    {r : Service × Session} (turn : SessionTurn s x a r) (h : s.after r = (t, events)) :
    ServiceTurn s a t.service := by
  obtain rfl := congrArg Prod.fst h
  rw [service_after]
  exact .session x here r turn

theorem serviceTurn_of_runTask {task : Task} (h : s.runTask? task = some (t, events)) :
    ServiceTurn s (.run task) t.service := by
  cases task with
  | call label =>
    obtain ⟨c, move, here, moves, hservice, -⟩ := runCall_some h
    rw [hservice]
    exact .call label rfl c here move moves
  | background b =>
    obtain ⟨service, hb, h⟩ := Option.map_eq_some_iff.mp h
    obtain ⟨rfl, -⟩ := Prod.mk.inj h
    cases b with
    | timer id | write id =>
      obtain ⟨_, -, rfl⟩ := Option.map_eq_some_iff.mp hb
      exact .other ..
  | forward name =>
    obtain ⟨x, hx, h⟩ := Option.bind_eq_some_iff.mp h
    obtain ⟨r, hr, hafter⟩ := Option.bind_eq_some_iff.mp h
    obtain rfl := session_name hx
    have turn := Session.forwarded_of_forward? hr
    exact serviceTurn_of_after hx (.forward r turn) (Option.some.inj hafter)
  | session name =>
    obtain ⟨x, hx, h⟩ := Option.bind_eq_some_iff.mp h
    obtain ⟨r, hr, hafter⟩ := Option.bind_eq_some_iff.mp h
    obtain rfl := session_name hx
    have turn := Session.proceeded_of_proceed? hr
    exact serviceTurn_of_after hx (.proceed r turn) (Option.some.inj hafter)

/-- **A call or a session in its turn changes the service, or only what is outside of it is
changed.** -/
theorem serviceTurn_of_step (h : s.step a = some (t, events)) : ServiceTurn s a t.service := by
  cases a with
  | call label call =>
    obtain ⟨t', ht, h⟩ := Option.map_eq_some_iff.mp h
    obtain ⟨rfl, -⟩ := Prod.mk.inj h
    exact serviceTurn_of_beginCall ht
  | http label r draw =>
    simp only [step, beginHttp?] at h
    split at h
    · obtain ⟨rfl, -⟩ := Prod.mk.inj (Option.some.inj h)
      exact .rests
    · obtain ⟨t', ht, h⟩ := Option.map_eq_some_iff.mp h
      obtain ⟨rfl, -⟩ := Prod.mk.inj h
      exact serviceTurn_of_beginCall ht
  | openSession name p connection =>
    obtain ⟨t', ht, h⟩ := Option.map_eq_some_iff.mp h
    obtain ⟨rfl, -⟩ := Prod.mk.inj h
    exact serviceTurn_of_openSession (.direct name p connection) ht
  | handshake name r =>
    simp only [step, shake?] at h
    split at h
    · obtain ⟨rfl, -⟩ := Prod.mk.inj (Option.some.inj h)
      exact .rests
    · rename_i p hcaller
      obtain ⟨t', ht, h⟩ := Option.map_eq_some_iff.mp h
      obtain ⟨rfl, -⟩ := Prod.mk.inj h
      exact serviceTurn_of_openSession (.shakes name r p hcaller) ht
  | run task => exact serviceTurn_of_runTask h
  | choose name choice =>
    obtain ⟨x, hx, h⟩ := Option.bind_eq_some_iff.mp h
    obtain ⟨r, hr, hafter⟩ := Option.bind_eq_some_iff.mp h
    obtain rfl := session_name hx
    obtain ⟨waits, turn⟩ := Session.chosen_of_choose? hr
    exact serviceTurn_of_after hx (.choose choice r waits turn) (Option.some.inj hafter)
  | peer name event =>
    obtain ⟨x, -, h⟩ := Option.map_eq_some_iff.mp h
    obtain ⟨rfl, -⟩ := Prod.mk.inj h
    exact .rests
  | dropSession name =>
    obtain ⟨x, hx, h⟩ := Option.map_eq_some_iff.mp h
    obtain ⟨rfl, -⟩ := Prod.mk.inj h
    obtain rfl := session_name hx
    exact .session x hx _ .drop
  | dropCall label | shutDown | setStore delay fault | setQueues fault | pushRaw recipient bytes
  | refill common own =>
    obtain ⟨rfl, -⟩ := Prod.mk.inj (Option.some.inj h)
    exact .other ..
  | link user device =>
    simp only [step] at h
    split at h <;> obtain ⟨rfl, -⟩ := Prod.mk.inj (Option.some.inj h)
    · exact .other ..
    · exact .rests
  | tick moment =>
    simp only [step] at h
    split at h
    · obtain ⟨rfl, -⟩ := Prod.mk.inj (Option.some.inj h)
      exact .other ..
    · cases h

theorem settings_of_session {x : Session} {r : Service × Session} (turn : SessionTurn s x a r) :
    r.1.settings = s.service.settings := by
  cases turn with
  | forward _ turn =>
    cases turn with
    | reserves _ _ _ after | consumes _ _ _ _ _ after =>
      subst after
      rfl
  | choose _ _ _ turn =>
    cases turn with
    | keeps _ _ after | hears _ _ _ _ after | refuses _ _ _ after | takes _ _ after
    | ends _ _ _ after =>
      subst after
      rfl
  | proceed _ turn =>
    cases turn with
    | publishes _ _ _ _ moves after =>
      subst after
      exact Service.settings_of_step? moves
    | sends _ _ _ _ after | ends _ _ _ _ _ after =>
      subst after
      rfl
  | drop =>
    unfold Session.drop
    split <;> rfl
  | peer => rfl

/-- **No step changes the settings.** -/
theorem settings_of_step (h : s.step a = some (t, events)) :
    t.service.settings = s.service.settings := by
  generalize hservice : t.service = v
  have turn := serviceTurn_of_step h
  rw [hservice] at turn
  cases turn with
  | call _ _ _ _ _ moves => exact Service.settings_of_step? moves
  | session _ _ _ turn => exact settings_of_session turn
  | opens | other => rfl

theorem ofConfig_eq {config : Config} {epoch : Int} (h : ofConfig config epoch = .ok s) :
    ∃ directory limits, s = {
      service := {
        config, directory, limits
        clock := { epoch }
        pairing := { ttl := config.pairing.requestTtl * 1000 }
        relay := .ofConfig config.relay } } := by
  unfold ofConfig Service.ofConfig at h
  split at h
  · cases h
  · split at h
    · cases h
    · exact ⟨_, _, (Except.ok.inj h).symm⟩

/-- At its start a server is as configured, and no session was counted. -/
theorem ofConfig_lasting {config : Config} {epoch : Int} (h : ofConfig config epoch = .ok s) :
    s.service.lasting = ⟨config, s.service.directory, 0, 0, 0⟩ := by
  obtain ⟨directory, limits, rfl⟩ := ofConfig_eq h
  rfl

/-- **A run keeps the settings with which it starts.** -/
theorem settings_of_history (h : machine.History start s steps) :
    s.service.settings = start.service.settings :=
  h.invariant (P := fun s => s.service.settings = start.service.settings) rfl
    fun _ _ _ _ hsame hstep => (settings_of_step hstep).trans hsame

end Server
end DeviceRelay
