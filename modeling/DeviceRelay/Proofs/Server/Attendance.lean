/-
# The sessions that are counted as running

A session that begins is counted as running, and one that ends is taken back. One that is
dropped while it runs is not: it stays counted for good. So the count is the number of sessions
that run and of those that were dropped while they ran, and it is right just as long as none
was dropped. It is lowered only from above nothing.

Key definitions: `Server.running`, `Server.gauge`, `Server.begins`, `Server.ends`,
`Server.strands`, `Server.Tallies`, `Server.Attended`.
Key theorems: `Server.tallies_of_step`, `Server.running_setSession`, `Server.attended`.
-/
import DeviceRelay.Proofs.Server.Endings
import DeviceRelay.Proofs.Server.Settings

namespace DeviceRelay
namespace Server

/-- How many sessions run. -/
def running (s : Server) : Nat := s.sessions.countP (·.isRunning)

/-- How many sessions are counted as running. -/
def gauge (s : Server) : Nat := s.service.metrics.activeSessions

/-- Whether an event is the end of a session. -/
def isEnd : Event → Bool
  | .sessionEnded _ _ => true
  | _ => false

/-- Whether an event is the acceptance of a handshake. -/
def isWelcome : Event → Bool
  | .shaken _ none => true
  | _ => false

/-- Whether a session begins in a step. -/
def begins (z : Step) : Bool :=
  match z.action with
  | .openSession _ _ _ => true
  | _ => z.events.any isWelcome

/-- Whether a session ends in a step. -/
def ends (z : Step) : Bool := z.events.any isEnd

/-- Whether a step drops a session that runs. -/
def strands (z : Step) : Bool :=
  match z.action with
  | .dropSession name => (z.before.session? name).any (·.isRunning)
  | _ => false

/-- What a step does to the sessions and to the counts of them. -/
structure Tallies (z : Step) : Prop where
  total : z.after.service.metrics.sessions =
    z.before.service.metrics.sessions + (begins z).toNat
  running : z.after.running + (ends z).toNat + (strands z).toNat =
    z.before.running + (begins z).toNat
  gauge : z.after.gauge = z.before.gauge + (begins z).toNat - (ends z).toNat

variable {start s t : Server} {a : Action} {events : List Event} {steps : List Step}
  {config : Config} {directory : Directory}

/-! ### The names of sessions -/

/-- No two sessions have one name. -/
def Distinct (s : Server) : Prop := (s.sessions.map (·.name)).Nodup

theorem names_setSession (s : Server) (y : Session) :
    (s.setSession y).sessions.map (·.name) = s.sessions.map (·.name) := by
  unfold setSession
  rw [List.map_map]
  refine List.map_congr_left fun x _ => ?_
  dsimp only [Function.comp_apply]
  split
  · next h => exact h.symm
  · rfl

/-- **Sessions begin under new names.** -/
theorem distinct_of_step (distinct : s.Distinct) (h : s.step a = some (t, events)) :
    t.Distinct := by
  unfold Distinct at distinct ⊢
  cases turn_of_step h with
  | still _ _ _ _ _ sessions | begins _ _ _ _ _ _ _ sessions | call _ _ _ _ _ _ _ _ sessions
  | dropCall _ _ _ _ sessions | raw _ _ _ _ _ sessions => exact sessions ▸ distinct
  | opens name p connection _ new sessions =>
    rw [sessions, List.map_append, List.map_singleton, ← List.concat_eq_append]
    refine distinct.concat fun hname => ?_
    obtain ⟨x, hx, hxname⟩ := List.mem_map.mp hname
    exact List.find?_eq_none.mp new x hx (by simpa using hxname)
  | session x _ r _ _ sessions =>
    rw [sessions, names_setSession]
    exact distinct

/-- A session that changes changes the number of those that run by itself. -/
theorem running_setSession (distinct : s.Distinct) {x y : Session}
    (here : s.session? x.name = some x) (same : y.name = x.name) :
    (s.setSession y).running + x.isRunning.toNat = s.running + y.isRunning.toNat :=
  Keyed.countP_replace Session.isRunning Session.name distinct here same

/-! ### Steps -/

theorem tallies_of_quiet (sessions : t.sessions = s.sessions)
    (lasting : t.service.lasting = s.service.lasting) (began : begins ⟨s, a, t, events⟩ = false)
    (ended : ends ⟨s, a, t, events⟩ = false) (stranded : strands ⟨s, a, t, events⟩ = false) :
    Tallies ⟨s, a, t, events⟩ where
  total := by
    rw [began]
    exact congrArg Service.Lasting.sessions lasting
  running := by
    rw [began, ended, stranded]
    exact congrArg (List.countP (·.isRunning)) sessions
  gauge := by
    rw [began, ended]
    exact congrArg Service.Lasting.activeSessions lasting

theorem tallies_of_openSession {name : String} {p : Principal} {connection : Connection}
    (h : s.openSession? name p connection = some t) (began : begins ⟨s, a, t, events⟩ = true)
    (ended : ends ⟨s, a, t, events⟩ = false) (stranded : strands ⟨s, a, t, events⟩ = false) :
    Tallies ⟨s, a, t, events⟩ := by
  unfold openSession? at h
  obtain ⟨-, h⟩ := Option.ite_none_left_eq_some.mp h
  obtain rfl := Option.some.inj h
  constructor
  case total =>
    rw [began]
    rfl
  case running =>
    rw [began, ended, stranded]
    exact List.countP_append
  case gauge =>
    rw [began, ended]
    rfl

/-- What a step of a session of its own does to the counts: it goes on or ends. -/
structure Counts (v : Service) (x : Session) (r : Service × Session) : Prop where
  runs : x.isRunning = true
  after : r.2.isRunning = true ∨ ∃ result, r.2.phase = .ended result
  total : r.1.metrics.sessions = v.metrics.sessions
  gauge : r.1.metrics.activeSessions = v.metrics.activeSessions - (!r.2.isRunning).toNat

theorem Counts.of_lasting {v : Service} {x : Session} {r : Service × Session}
    (runs : x.isRunning = true) (lasting : r.1.lasting = v.lasting)
    (goesOn : r.2.isRunning = true) : Counts v x r where
  runs := runs
  after := .inl goesOn
  total := congrArg Service.Lasting.sessions lasting
  gauge := by
    rw [goesOn]
    exact congrArg Service.Lasting.activeSessions lasting

theorem Counts.of_finish {v : Service} {x : Session} (runs : x.isRunning = true)
    (connection : Connection) (result : Except TransportError Unit) :
    Counts v x ({ x with connection }.finish v result) :=
  ⟨runs, .inr ⟨result, rfl⟩, rfl, rfl⟩

theorem runs_onPhase (p : Principal) (q : Prompt) (x : Session) :
    { x with phase := q.phase p }.isRunning = true := by
  dsimp only [Session.isRunning, Prompt.phase]
  cases q.read <;> rfl

/-- **A session that makes a step of its own goes on, or is taken back.** -/
theorem counts_of_acts {x : Session} {r : Service × Session} (acts : Acts s x a r) :
    Counts s.service x r := by
  cases acts with
  | forward _ turn =>
    have hforwarded := Session.forwarded_of_forward? turn
    have hruns := runs_of_forwarded hforwarded
    have hgoesOn : r.2.isRunning = true := by
      unfold Session.isRunning at hruns ⊢
      rw [phase_of_forwarded hforwarded]
      exact hruns
    cases hforwarded with
    | reserves _ _ _ after | consumes _ _ _ _ _ after =>
      exact .of_lasting hruns (after ▸ rfl) hgoesOn
  | choose choice _ turn =>
    obtain ⟨hwaits, hpicked⟩ := Session.picked_of_choose? turn
    have hruns : x.isRunning = true := by rw [Session.isRunning, hwaits]
    cases hpicked with
    | rests => exact .of_lasting hruns rfl hruns
    | hears connection _ _ q =>
      exact .of_lasting hruns rfl (runs_onPhase x.principal q { x with connection })
    | relays => exact .of_lasting hruns rfl rfl
    | ends _ connection result => exact .of_finish hruns connection result
  | proceed _ turn =>
    cases Session.went_of_proceed? turn with
    | publishes messageId phase before move moves =>
      have hruns : x.isRunning = true := by rw [Session.isRunning, before]
      refine .of_lasting hruns (Service.lasting_of_step? moves) ?_
      dsimp only [Session.isRunning]
      cases move.progress <;> rfl
    | sends frame before => exact .of_lasting (by rw [Session.isRunning, before]) rfl rfl
    | ends frame before connection result =>
      exact .of_finish (by rw [Session.isRunning, before]) connection result

theorem any_isEnd_after {v : Service} {x : Session} {r : Service × Session}
    (counts : Counts v x r) : (s.after r).2.any isEnd = !r.2.isRunning := by
  rw [events_after]
  rcases counts.after with hruns | ⟨result, hended⟩
  · rw [hruns]
    unfold Session.isRunning at hruns
    split
    · next hended => simp [hended] at hruns
    · rfl
  · rw [Session.isRunning, hended]
    rfl

theorem any_isWelcome_after (r : Service × Session) : (s.after r).2.any isWelcome = false := by
  rw [events_after]
  split <;> rfl

theorem running_after (r : Service × Session) :
    (s.after r).1.running = (s.setSession r.2).running := by
  unfold after
  dsimp only
  split <;> rfl

theorem tallies_of_acts (distinct : s.Distinct) {x : Session} {r : Service × Session}
    (here : s.session? x.name = some x) (acts : Acts s x a r) (after : s.after r = (t, events)) :
    Tallies ⟨s, a, t, events⟩ := by
  obtain ⟨rfl, rfl⟩ := Prod.ext_iff.mp after
  have counts := counts_of_acts acts
  have hrunning := running_setSession distinct here (name_of_acts acts)
  have hbegins : begins ⟨s, a, (s.after r).1, (s.after r).2⟩ = false := by
    cases acts <;> exact any_isWelcome_after r
  have hends : ends ⟨s, a, (s.after r).1, (s.after r).2⟩ = !r.2.isRunning :=
    any_isEnd_after counts
  have hstrands : strands ⟨s, a, (s.after r).1, (s.after r).2⟩ = false := by
    cases acts <;> rfl
  constructor
  case total =>
    rw [hbegins, service_after]
    exact counts.total
  case running =>
    rw [hbegins, hends, hstrands, running_after]
    rw [counts.runs] at hrunning
    cases hr : r.2.isRunning <;> rw [hr] at hrunning <;> simpa using hrunning
  case gauge =>
    rw [hbegins, hends, Server.gauge, service_after]
    exact counts.gauge

theorem strands_dropSession {x : Session} (here : s.session? x.name = some x) :
    strands ⟨s, .dropSession x.name, t, events⟩ = x.isRunning := by
  simp [strands, here]

theorem lasting_drop (v : Service) (x : Session) : (x.drop v).1.lasting = v.lasting := by
  unfold Session.drop
  split <;> rfl

theorem tallies_of_setSession (distinct : s.Distinct) {x y : Session}
    (here : s.session? x.name = some x) (same : y.name = x.name)
    (sessions : t.sessions = (s.setSession y).sessions)
    (lasting : t.service.lasting = s.service.lasting) (began : begins ⟨s, a, t, events⟩ = false)
    (ended : ends ⟨s, a, t, events⟩ = false)
    (stranded : y.isRunning.toNat + (strands ⟨s, a, t, events⟩).toNat = x.isRunning.toNat) :
    Tallies ⟨s, a, t, events⟩ where
  total := by
    rw [began]
    exact congrArg Service.Lasting.sessions lasting
  running := by
    have hrunning := running_setSession distinct here same
    have hsame : t.running = (s.setSession y).running :=
      congrArg (List.countP Session.isRunning) sessions
    rw [began, ended]
    dsimp only [Bool.toNat_false]
    omega
  gauge := by
    rw [began, ended]
    exact congrArg Service.Lasting.activeSessions lasting

theorem tallies_of_runTask (distinct : s.Distinct) {task : Task}
    (h : s.runTask? task = some (t, events)) : Tallies ⟨s, .run task, t, events⟩ := by
  cases task with
  | call label =>
    obtain ⟨c, move, -, moves, hservice, -, hsessions, hprogress⟩ := runCall_some h
    have hlasting : t.service.lasting = s.service.lasting := by
      rw [hservice]
      exact Service.lasting_of_step? moves
    have hevents : events.any isWelcome = false ∧ events.any isEnd = false := by
      rcases hprogress with ⟨_, -, rfl, -⟩ | ⟨ending, -, rfl, -⟩
      · exact ⟨rfl, rfl⟩
      · cases c.origin <;> exact ⟨rfl, rfl⟩
    exact tallies_of_quiet hsessions hlasting hevents.1 hevents.2 rfl
  | background b =>
    obtain ⟨service, hb, h⟩ := Option.map_eq_some_iff.mp h
    obtain ⟨rfl, rfl⟩ := Prod.mk.inj h
    exact tallies_of_quiet rfl (Service.lasting_of_runBackground? hb) rfl rfl rfl
  | forward name =>
    obtain ⟨x, hx, h⟩ := Option.bind_eq_some_iff.mp h
    obtain ⟨r, hr, hafter⟩ := Option.bind_eq_some_iff.mp h
    obtain rfl := session_name hx
    exact tallies_of_acts distinct hx (.forward r hr) (Option.some.inj hafter)
  | session name =>
    obtain ⟨x, hx, h⟩ := Option.bind_eq_some_iff.mp h
    obtain ⟨r, hr, hafter⟩ := Option.bind_eq_some_iff.mp h
    obtain rfl := session_name hx
    exact tallies_of_acts distinct hx (.proceed r hr) (Option.some.inj hafter)

/-- **Every step counts the sessions that begin and takes back those that end.** -/
theorem tallies_of_step (distinct : s.Distinct) (h : s.step a = some (t, events)) :
    Tallies ⟨s, a, t, events⟩ := by
  cases a with
  | call label call =>
    obtain ⟨t', ht, h⟩ := Option.map_eq_some_iff.mp h
    obtain ⟨rfl, rfl⟩ := Prod.mk.inj h
    obtain ⟨_, -, -, -, rfl⟩ := beginCall_some ht
    exact tallies_of_quiet rfl rfl rfl rfl rfl
  | http label r draw =>
    simp only [step, beginHttp?] at h
    split at h
    · obtain ⟨rfl, rfl⟩ := Prod.mk.inj (Option.some.inj h)
      exact tallies_of_quiet rfl rfl rfl rfl rfl
    · obtain ⟨t', ht, h⟩ := Option.map_eq_some_iff.mp h
      obtain ⟨rfl, rfl⟩ := Prod.mk.inj h
      obtain ⟨_, -, -, -, rfl⟩ := beginCall_some ht
      exact tallies_of_quiet rfl rfl rfl rfl rfl
  | openSession name p connection =>
    obtain ⟨t', ht, h⟩ := Option.map_eq_some_iff.mp h
    obtain ⟨rfl, rfl⟩ := Prod.mk.inj h
    exact tallies_of_openSession ht rfl rfl rfl
  | handshake name r =>
    simp only [step, shake?] at h
    split at h
    · obtain ⟨rfl, rfl⟩ := Prod.mk.inj (Option.some.inj h)
      exact tallies_of_quiet rfl rfl rfl rfl rfl
    · obtain ⟨t', ht, h⟩ := Option.map_eq_some_iff.mp h
      obtain ⟨rfl, rfl⟩ := Prod.mk.inj h
      exact tallies_of_openSession ht rfl rfl rfl
  | run task => exact tallies_of_runTask distinct h
  | choose name choice =>
    obtain ⟨x, hx, h⟩ := Option.bind_eq_some_iff.mp h
    obtain ⟨r, hr, hafter⟩ := Option.bind_eq_some_iff.mp h
    obtain rfl := session_name hx
    exact tallies_of_acts distinct hx (.choose choice r hr) (Option.some.inj hafter)
  | peer name event =>
    obtain ⟨x, hx, h⟩ := Option.map_eq_some_iff.mp h
    obtain ⟨rfl, rfl⟩ := Prod.mk.inj h
    obtain rfl := session_name hx
    exact tallies_of_setSession distinct (y := { x with connection := x.connection.onPeer event })
      hx rfl rfl rfl rfl rfl rfl
  | dropSession name =>
    obtain ⟨x, hx, h⟩ := Option.map_eq_some_iff.mp h
    obtain ⟨rfl, rfl⟩ := Prod.mk.inj h
    obtain rfl := session_name hx
    refine tallies_of_setSession distinct hx (x.same_drop s.service).name rfl
      (lasting_drop s.service x) rfl rfl ?_
    rw [Session.isRunning_drop, strands_dropSession hx]
    exact Nat.zero_add _
  | dropCall label | shutDown | setStore delay fault | setQueues fault | pushRaw recipient bytes
  | refill common own =>
    obtain ⟨rfl, rfl⟩ := Prod.mk.inj (Option.some.inj h)
    exact tallies_of_quiet rfl rfl rfl rfl rfl
  | link user device =>
    simp only [step] at h
    split at h <;> obtain ⟨rfl, rfl⟩ := Prod.mk.inj (Option.some.inj h) <;>
      exact tallies_of_quiet rfl rfl rfl rfl rfl
  | tick moment =>
    simp only [step] at h
    split at h
    · obtain ⟨rfl, rfl⟩ := Prod.mk.inj (Option.some.inj h)
      exact tallies_of_quiet rfl rfl rfl rfl rfl
    · cases h

/-! ### Runs -/

/-- What the count of running sessions is in a run. -/
structure Attended (s : Server) (steps : List Step) : Prop where
  /-- A session that began runs, unless it ended or was dropped while it ran. -/
  begun : steps.countP begins = s.running + steps.countP ends + steps.countP strands
  /-- All that began are counted. -/
  total : s.service.metrics.sessions = steps.countP begins
  /-- Those are counted as running that run and that were dropped while they ran. -/
  gauge : s.gauge = s.running + steps.countP strands
  /-- So the count is right just as long as none was dropped while it ran. -/
  right : s.gauge = s.running ↔ ∀ z ∈ steps, strands z = false
  /-- It is lowered only for a session that ends, by one, and never below nothing. -/
  lowered : ∀ z ∈ steps, z.after.gauge + (ends z).toNat = z.before.gauge + (begins z).toNat

theorem countP_concat (p : Step → Bool) (steps : List Step) (z : Step) :
    (steps ++ [z]).countP p = steps.countP p + (p z).toNat := by
  rw [List.countP_append, List.countP_singleton]
  cases p z <;> rfl

theorem right_iff (gauge : s.gauge = s.running + steps.countP strands) :
    s.gauge = s.running ↔ ∀ z ∈ steps, strands z = false := by
  rw [gauge, Nat.add_eq_left, List.countP_eq_zero]
  simp only [Bool.not_eq_true]

theorem attended_start (lasting : s.service.lasting = .mk config directory 0 0 0)
    (sessions : s.sessions = []) : Attended s [] := by
  have hrunning : s.running = 0 := by rw [running, sessions]; rfl
  have hgauge : s.gauge = s.running + ([] : List Step).countP strands := by
    rw [hrunning]
    exact congrArg Service.Lasting.activeSessions lasting
  exact ⟨by rw [hrunning]; rfl, congrArg Service.Lasting.sessions lasting, hgauge,
    right_iff hgauge, fun _ hz => absurd hz List.not_mem_nil⟩

/-- One more step keeps the account. -/
theorem attended_step {z : Step} (A : Attended z.before steps) (T : Tallies z) :
    Attended z.after (steps ++ [z]) := by
  have htotal := T.total
  have hrunning := T.running
  have hgauge := T.gauge
  have hbegun := A.begun
  have hcounted := A.gauge
  have gauge : z.after.gauge = z.after.running + (steps ++ [z]).countP strands := by
    rw [countP_concat]
    omega
  constructor
  case begun =>
    rw [countP_concat, countP_concat, countP_concat]
    omega
  case total => rw [countP_concat, htotal, A.total]
  case gauge => exact gauge
  case right => exact right_iff gauge
  case lowered =>
    intro y hy
    rcases List.mem_append.mp hy with hy | hy
    · exact A.lowered y hy
    · obtain rfl := List.mem_singleton.mp hy
      omega

/-- **Sessions that are dropped while they run stay counted as running**, and no others do, in
every run. -/
theorem attended {config : Config} {epoch : Int} (hstart : ofConfig config epoch = .ok start)
    (h : machine.History start s steps) : Attended s steps := by
  suffices key : s.Distinct ∧ Attended s steps from key.2
  have hsessions := (ofConfig_ok hstart).2.2
  induction h with
  | start =>
    refine ⟨?_, attended_start (ofConfig_lasting hstart) hsessions⟩
    rw [Distinct, hsessions]
    exact List.nodup_nil
  | step _ hstep ih =>
    exact ⟨distinct_of_step ih.1 hstep, attended_step ih.2 (tallies_of_step ih.1 hstep)⟩

/-! ### Two visits -/

def visitor : Principal := ⟨⟨1⟩, "alice", false⟩

def house : Config where
  principals := [⟨visitor, "t-alice"⟩]

def houseStart : Server := (ofConfig house 0).toOption.get rfl

/-- Of two sessions of a user the first is dropped, and the peer of the second leaves. -/
def visits : List Action :=
  [.openSession "a" visitor (.direct {}), .openSession "b" visitor (.direct {}),
    .dropSession "a", .peer "b" (.direct .leave), .choose "b" .receive]

theorem replay_visits : (machine.replay houseStart visits).isSome = true := by decide +kernel

/-- After two visits, of which one was dropped and one ended, one session is counted. -/
theorem attended_of_visits : ∃ (start s : Server) (steps : List Step),
    ofConfig house 0 = .ok start ∧ machine.History start s steps ∧ steps.countP begins = 2 ∧
      steps.countP ends = 1 ∧ steps.countP strands = 1 ∧ s.gauge = 1 ∧ Attended s steps := by
  have hstart : ofConfig house 0 = .ok houseStart := rfl
  have h := Machine.history_of_replayed replay_visits
  exact ⟨_, _, _, hstart, h, by decide +kernel, by decide +kernel, by decide +kernel,
    by decide +kernel, attended hstart h⟩

/-- One session, which is dropped as soon as it began. -/
def glimpse : List Action := [.openSession "a" visitor (.direct {}), .dropSession "a"]

theorem replay_glimpse : (machine.replay houseStart glimpse).isSome = true := by decide +kernel

/-- **A session is counted as running when none runs.** -/
theorem counted_of_glimpse : ∃ (start s : Server) (steps : List Step), house.check = .ok () ∧
    ofConfig house 0 = .ok start ∧ machine.History start s steps ∧
      steps.map (·.action) = glimpse ∧ s.running = 0 ∧
      steps.countP begins = steps.countP strands ∧ s.gauge = 1 := by
  have hstart : ofConfig house 0 = .ok houseStart := rfl
  have h := Machine.history_of_replayed replay_glimpse
  have hactions := Machine.actions_of_replay (Option.some_get replay_glimpse).symm
  exact ⟨_, _, _, rfl, hstart, h, hactions, by decide +kernel, by decide +kernel,
    by decide +kernel⟩

end Server
end DeviceRelay
