/-
# Over a WebSocket a server does what it does with the session within the process

On a server on which one session has its connection over a WebSocket each step shows the same as on
the server on which that connection is within the process, and leads to the same there. The steps in
which the peer of the session sends a ping or a pong, and those in which the session receives one, are
none there. So every run is the same within the process as long as the session does not end in
failure; the step in which it does ends it well there, and counts no failure.

Key definitions: `Server.asDirect`, `Server.asDirectOf`, `Server.Own`, `Server.OverSocket`,
`Server.shown?`.
Key theorems: `Server.openSession?_direct`, `Server.step_asDirect_of_others`, `Server.own_of_step`,
`Server.stable_of_own`, `Server.acts_within`, `Server.overSocket_of_step`, `Server.run_shown?`,
`Server.spared_of_step`, `Server.run_of_history`, `Server.run_of_opening`.
-/
import DeviceRelay.Proofs.Server.Attendance
import DeviceRelay.Proofs.Server.Causes
import DeviceRelay.Proofs.Server.Replies
import DeviceRelay.Proofs.Server.Shifts
import DeviceRelay.Proofs.Session.Mirrors

namespace DeviceRelay

/-- A session with its connection within the process, if it is the one of the name. -/
def Session.asDirectIf (name : String) (x : Session) : Session :=
  if x.name = name then x.asDirect else x

namespace Session

variable {name : String} {x : Session}

theorem asDirectIf_of_eq (h : x.name = name) : x.asDirectIf name = x.asDirect := if_pos h

theorem asDirectIf_of_ne (h : x.name ≠ name) : x.asDirectIf name = x := if_neg h

@[simp] theorem name_asDirectIf (name : String) (x : Session) : (x.asDirectIf name).name = x.name := by
  unfold asDirectIf
  split <;> rfl

@[simp] theorem phase_asDirectIf (name : String) (x : Session) : (x.asDirectIf name).phase = x.phase := by
  unfold asDirectIf
  split <;> rfl

end Session

namespace Server

variable {s t : Server} {a : Action} {events : List Event} {name : String}

/-- The server on which a session has its connection within the process. -/
def asDirect (s : Server) (name : String) : Server :=
  { s with sessions := s.sessions.map (Session.asDirectIf name) }

/-- What a step led to, with the connection of a session within the process. -/
def asDirectOf (name : String) (r : Server × List Event) : Server × List Event :=
  (r.1.asDirect name, r.2)

theorem session?_asDirect (s : Server) (name other : String) :
    (s.asDirect name).session? other = (s.session? other).map (Session.asDirectIf name) :=
  Keyed.find?_map s.sessions (·.name) (Session.name_asDirectIf name) other

theorem setSession_asDirect (s : Server) (name : String) (y : Session) :
    (s.asDirect name).setSession (y.asDirectIf name) = (s.setSession y).asDirect name := by
  unfold setSession asDirect
  dsimp only
  rw [List.map_map, List.map_map]
  congr 1
  apply List.map_congr_left
  intro other _
  simp only [Function.comp_apply, Session.name_asDirectIf]
  split <;> rfl

theorem setSession_self (distinct : s.Distinct) {x : Session} (here : s.session? x.name = some x) :
    s.setSession x = s := by
  have hsessions : s.sessions.map (fun other => if other.name = x.name then x else other) =
      s.sessions := by
    conv_rhs => rw [← List.map_id s.sessions]
    apply List.map_congr_left
    intro other hother
    by_cases hname : other.name = x.name
    · have hfound : s.session? other.name = some other := Keyed.find?_of_mem distinct hother
      rw [hname, here] at hfound
      rw [if_pos hname]
      exact Option.some.inj hfound
    · rw [if_neg hname]
      rfl
  unfold setSession
  rw [hsessions]

theorem distinct_asDirect (name : String) (distinct : s.Distinct) : (s.asDirect name).Distinct := by
  have hnames : (s.asDirect name).sessions.map (·.name) = s.sessions.map (·.name) := by
    unfold asDirect
    rw [List.map_map]
    exact List.map_congr_left fun x _ => Session.name_asDirectIf name x
  unfold Distinct
  rw [hnames]
  exact distinct

/-! ### Steps of others -/

theorem beginCall?_asDirect (s : Server) (name label : String) (origin : Origin) (call : Call) :
    (s.asDirect name).beginCall? label origin call =
      (s.beginCall? label origin call).map (·.asDirect name) := by
  have hcall : (s.asDirect name).call? label = s.call? label := rfl
  have hdrawn : (s.asDirect name).drawn = s.drawn := rfl
  unfold beginCall?
  rw [hcall, hdrawn]
  dsimp only
  split <;> split <;> rfl

theorem session?_of_opened {p : Principal} {connection : Connection}
    (h : s.openSession? name p connection = some t) :
    t.session? name = some { name, principal := p, connection } := by
  unfold openSession? at h
  obtain ⟨hnew, h⟩ := Option.ite_none_left_eq_some.mp h
  obtain rfl := Option.some.inj h
  have hnone : s.sessions.find? (fun x => decide (x.name = name)) = none := by
    simpa [session?] using hnew
  simp [session?, List.find?_append, hnone]

/-- **A session is opened within the process as it is over a WebSocket.** -/
theorem openSession?_direct {p : Principal} (h : s.openSession? name p (.webSocket {}) = some t) :
    s.openSession? name p (.direct {}) = some (t.asDirect name) := by
  unfold openSession? at h ⊢
  obtain ⟨hnew, h⟩ := Option.ite_none_left_eq_some.mp h
  obtain rfl := Option.some.inj h
  rw [if_neg hnew]
  have hothers : s.sessions.map (Session.asDirectIf name) = s.sessions := by
    conv_rhs => rw [← List.map_id s.sessions]
    apply List.map_congr_left
    intro x hx
    apply Session.asDirectIf_of_ne
    rintro rfl
    exact hnew (List.find?_isSome.mpr ⟨x, hx, by simp⟩)
  have hopened : Session.asDirectIf name { name, principal := p, connection := .webSocket {} } =
      { name, principal := p, connection := .direct {} } := Session.asDirectIf_of_eq rfl
  simp [asDirect, hothers, hopened]

theorem openSession?_asDirect {other : String} (known : (s.session? name).isSome = true) (p : Principal)
    (connection : Connection) :
    (s.asDirect name).openSession? other p connection =
      (s.openSession? other p connection).map (·.asDirect name) := by
  unfold openSession?
  rw [session?_asDirect, Option.isSome_map]
  by_cases hother : (s.session? other).isSome = true
  · rw [if_pos hother, if_pos hother, Option.map_none]
  · have hne : other ≠ name := fun h => hother (h ▸ known)
    rw [if_neg hother, if_neg hother, Option.map_some]
    unfold asDirect
    simp [Session.asDirectIf, hne]

/-- **A step that is no turn of a session is the same** on the server on which the connection of a
session is within the process. -/
theorem step_asDirect_of_others (known : (s.session? name).isSome = true) (others : a.session? = none) :
    (s.asDirect name).step a = (s.step a).map (asDirectOf name) := by
  have hservice : (s.asDirect name).service = s.service := rfl
  cases a with
  | call label call =>
    dsimp only [step]
    rw [beginCall?_asDirect]
    cases s.beginCall? label .direct call <;> rfl
  | http label r draw =>
    dsimp only [step, beginHttp?]
    rw [hservice]
    cases r.plan s.service draw with
    | answer response => rfl
    | call call rendering =>
      dsimp only
      rw [beginCall?_asDirect]
      cases s.beginCall? label (.http r.method rendering) call <;> rfl
  | openSession other p connection =>
    dsimp only [step]
    rw [openSession?_asDirect known]
    cases s.openSession? other p connection <;> rfl
  | handshake other r =>
    dsimp only [step, shake?]
    rw [hservice]
    cases s.service.caller r with
    | error e => rfl
    | ok p =>
      dsimp only
      rw [openSession?_asDirect known]
      cases s.openSession? other p (.webSocket {}) <;> rfl
  | run task =>
    cases task with
    | call label =>
      have hcall : (s.asDirect name).call? label = s.call? label := rfl
      dsimp only [step, runTask?]
      rw [runCall?_eq, runCall?_eq, hcall, hservice]
      cases s.call? label with
      | none => rfl
      | some c =>
        dsimp only [Option.bind_some]
        cases s.service.step? (.call label) c.phase with
        | none => rfl
        | some m =>
          refine congrArg some ?_
          unfold moved asDirectOf
          cases m.progress <;> rfl
    | background b =>
      dsimp only [step, runTask?]
      rw [hservice]
      cases s.service.runBackground? b <;> rfl
    | forward other | session other => cases others
  | choose | peer | dropSession => cases others
  | dropCall | shutDown | setStore | setQueues | pushRaw | refill => rfl
  | link user device =>
    dsimp only [step]
    rw [hservice]
    cases s.service.store.edges.create? user device <;> rfl
  | tick moment =>
    dsimp only [step]
    rw [hservice]
    split <;> rfl

/-! ### Steps of sessions -/

theorem step_of_acts {x : Session} {r : Service × Session} (here : s.session? x.name = some x)
    (acts : Acts s x a r) : s.step a = some (s.after r) := by
  cases acts with
  | forward _ turn => simp [step, runTask?, runForward?, here, turn]
  | choose choice _ turn => simp [step, choose?, here, turn]
  | proceed _ turn => simp [step, runTask?, runSession?, here, turn]

/-- What happens in the turn of a session, and what it becomes: it makes a step of its own, its peer
does something, or it is dropped. -/
inductive Own (s : Server) (x : Session) : Action → Session → Server → List Event → Prop where
  | acts {a : Action} (r : Service × Session) (acts : Acts s x a r) :
    Own s x a r.2 (s.after r).1 (s.after r).2
  | peer (event : PeerEvent) : Own s x (.peer x.name event)
    { x with connection := x.connection.onPeer event }
    (s.setSession { x with connection := x.connection.onPeer event }) []
  | drops : Own s x (.dropSession x.name) (x.drop s.service).2
    (({ s with service := (x.drop s.service).1 }.setSession (x.drop s.service).2).endSessionTasks
      x.name) []

/-- What is the turn of a session is one of these. -/
theorem own_of_step (h : s.step a = some (t, events)) (turn : a.session? = some name) :
    ∃ x y, s.session? name = some x ∧ x.name = name ∧ Own s x a y t events := by
  have acted {x : Session} {r : Service × Session} (hx : s.session? name = some x)
      (acts : x.name = name → Acts s x a r) (hafter : s.after r = (t, events)) :
      ∃ x y, s.session? name = some x ∧ x.name = name ∧ Own s x a y t events := by
    have hname := session_name hx
    obtain ⟨rfl, rfl⟩ := Prod.ext_iff.mp hafter
    exact ⟨x, r.2, hx, hname, .acts r (acts hname)⟩
  cases a with
  | run task =>
    cases task with
    | call | background => cases turn
    | forward other =>
      obtain rfl := Option.some.inj turn
      obtain ⟨x, hx, h⟩ := Option.bind_eq_some_iff.mp h
      obtain ⟨r, hr, hafter⟩ := Option.bind_eq_some_iff.mp h
      exact acted hx (fun hname => hname ▸ .forward r hr) (Option.some.inj hafter)
    | session other =>
      obtain rfl := Option.some.inj turn
      obtain ⟨x, hx, h⟩ := Option.bind_eq_some_iff.mp h
      obtain ⟨r, hr, hafter⟩ := Option.bind_eq_some_iff.mp h
      exact acted hx (fun hname => hname ▸ .proceed r hr) (Option.some.inj hafter)
  | choose other choice =>
    obtain rfl := Option.some.inj turn
    obtain ⟨x, hx, h⟩ := Option.bind_eq_some_iff.mp h
    obtain ⟨r, hr, hafter⟩ := Option.bind_eq_some_iff.mp h
    exact acted hx (fun hname => hname ▸ .choose choice r hr) (Option.some.inj hafter)
  | peer other event =>
    obtain rfl := Option.some.inj turn
    obtain ⟨x, hx, h⟩ := Option.map_eq_some_iff.mp h
    obtain ⟨rfl, rfl⟩ := Prod.mk.inj h
    obtain rfl := session_name hx
    exact ⟨x, _, hx, rfl, .peer event⟩
  | dropSession other =>
    obtain rfl := Option.some.inj turn
    obtain ⟨x, hx, h⟩ := Option.map_eq_some_iff.mp h
    obtain ⟨rfl, rfl⟩ := Prod.mk.inj h
    obtain rfl := session_name hx
    exact ⟨x, _, hx, rfl, .drops⟩
  | _ => cases turn

theorem after_asDirect (s : Server) (name : String) (r : Service × Session) :
    (s.asDirect name).after (r.1, r.2.asDirectIf name) = asDirectOf name (s.after r) := by
  have hset := setSession_asDirect { s with service := r.1 } name r.2
  have hserver : { s.asDirect name with service := r.1 } = { s with service := r.1 }.asDirect name := rfl
  unfold after
  dsimp only
  rw [hserver, hset, Session.phase_asDirectIf, Session.name_asDirectIf]
  cases r.2.phase <;> rfl

/-- A session of another name makes the same step. -/
theorem acts_of_other {x : Session} {r : Service × Session} (acts : Acts s x a r) :
    Acts (s.asDirect name) x a r := by
  cases acts with
  | forward _ turn => exact .forward r turn
  | choose choice _ turn => exact .choose choice r turn
  | proceed _ turn => exact .proceed r turn

/-- **A session over a WebSocket makes the step that it makes within the process**, unless what it
receives shows nothing. -/
theorem acts_within {x : Session} {r : Service × Session} {ws : WebSocket}
    (wired : x.connection = .webSocket ws) (shows : a = .choose x.name .receive → x.rests = false)
    (acts : Acts s x a r) : Acts (s.asDirect name) x.asDirect a (Session.within r) := by
  cases acts with
  | forward _ turn => exact .forward _ (Session.forward?_asDirect turn)
  | choose choice _ turn =>
    exact .choose choice _ (Session.choose?_asDirect wired (fun h => shows (h ▸ rfl)) turn)
  | proceed _ turn => exact .proceed _ (Session.proceed?_asDirect wired turn)

/-- A session has its connection over a WebSocket. -/
def OverSocket (name : String) (s : Server) : Prop :=
  ∃ x, s.session? name = some x ∧ x.connection.isSocket = true

/-- The session is on the server what it becomes in its turn. -/
theorem session?_of_own {x y : Session} (here : s.session? x.name = some x)
    (own : Own s x a y t events) : t.session? x.name = some y := by
  cases own with
  | acts r acts => exact session?_after here (name_of_acts acts)
  | peer event => rw [session?_setSession, if_pos rfl, here, Option.map_some]
  | drops =>
    have hname : (x.drop s.service).2.name = x.name := (x.same_drop s.service).name
    show ({ s with service := (x.drop s.service).1 }.setSession _).session? x.name = _
    rw [session?_setSession, if_pos hname.symm]
    show (s.session? x.name).map _ = _
    rw [here, Option.map_some]

/-- What lasts of a connection lasts in the turn of its session. -/
theorem stable_of_own {P : Connection → Prop} (stable : Connection.Stable P) {x y : Session}
    (hx : P x.connection) (own : Own s x a y t events) : P y.connection := by
  cases own with
  | acts r acts =>
    cases acts with
    | forward _ turn =>
      rw [(Session.same_of_forward? turn).1]
      exact hx
    | choose _ _ turn => exact Session.stable_choose? stable hx turn
    | proceed _ turn => exact Session.stable_proceed? stable hx turn
  | peer event => exact stable.meets event hx
  | drops =>
    rw [Session.connection_drop]
    exact hx

/-- A session makes a step in its turn, and is left alone in all others. -/
theorem own_or_apart {x : Session} (here : s.session? name = some x)
    (h : s.step a = some (t, events)) :
    (∃ y, Own s x a y t events ∧ t.session? name = some y) ∨
      a.session? ≠ some name ∧ t.session? name = some x := by
  by_cases hturn : a.session? = some name
  · obtain ⟨x', y, here', rfl, own⟩ := own_of_step h hturn
    obtain rfl := Option.some.inj (here.symm.trans here')
    exact .inl ⟨y, own, session?_of_own here own⟩
  · refine .inr ⟨hturn, ?_⟩
    cases becomes_of_turn (turn_of_step h) name with
    | acts x' here' r turn =>
      have hname := session_name here'
      exact absurd (hname ▸ turn.session?) hturn
    | rests _ after => exact after.trans here
    | joins _ new => exact absurd here (by simp [new])

/-- A session over a WebSocket stays one. -/
theorem overSocket_of_step (wired : OverSocket name s) (h : s.step a = some (t, events)) :
    OverSocket name t := by
  obtain ⟨x, here, hsocket⟩ := wired
  rcases own_or_apart here h with ⟨y, own, hy⟩ | ⟨-, hsame⟩
  · exact ⟨y, hy, stable_of_own Connection.stable_isSocket hsocket own⟩
  · exact ⟨x, hsame, hsocket⟩

/-! ### What shows within the process -/

/-- The action that a step is within the process. A step in which the peer sends or the session
receives a ping or a pong is none. -/
def shown? (name : String) (z : Step) : Option Action :=
  match z.action with
  | .peer other event =>
    if other = name then event.asDirect?.map fun event => .peer name (.direct event)
    else some z.action
  | .choose other .receive =>
    if other = name ∧ (z.before.session? name).any Session.rests then none else some z.action
  | action => some action

theorem shown?_of_others {z : Step} (others : z.action.session? ≠ some name) :
    shown? name z = some z.action := by
  unfold shown?
  split
  · rename_i other event haction
    rw [if_neg]
    rintro rfl
    simp [haction, Action.session?] at others
  · rename_i other haction
    rw [if_neg]
    rintro ⟨rfl, -⟩
    simp [haction, Action.session?] at others
  · rfl

/-- The turn of another session is the same. -/
theorem step_asDirect_of_other {other : String} (h : s.step a = some (t, events))
    (turn : a.session? = some other) (hne : other ≠ name) :
    (s.asDirect name).step a = some (asDirectOf name (t, events)) := by
  obtain ⟨x, _, here, rfl, own⟩ := own_of_step h turn
  have hsame : x.asDirectIf name = x := Session.asDirectIf_of_ne hne
  have here' : (s.asDirect name).session? x.name = some x := by
    rw [session?_asDirect, here, Option.map_some, hsame]
  cases own with
  | acts r acts =>
    have hr : r.2.asDirectIf name = r.2 :=
      Session.asDirectIf_of_ne (by rw [name_of_acts acts]; exact hne)
    have hafter := after_asDirect s name r
    rw [hr] at hafter
    rw [step_of_acts here' (acts_of_other acts)]
    exact congrArg some hafter
  | peer event =>
    have hpeer : { x with connection := x.connection.onPeer event }.asDirectIf name =
        { x with connection := x.connection.onPeer event } := Session.asDirectIf_of_ne hne
    have hset := setSession_asDirect s name { x with connection := x.connection.onPeer event }
    rw [hpeer] at hset
    dsimp only [step]
    rw [here', Option.map_some, hset]
    rfl
  | drops =>
    have hdrop : (x.drop s.service).2.asDirectIf name = (x.drop s.service).2 :=
      Session.asDirectIf_of_ne (by rw [(x.same_drop s.service).name]; exact hne)
    have hset := setSession_asDirect { s with service := (x.drop s.service).1 } name (x.drop s.service).2
    rw [hdrop] at hset
    dsimp only [step]
    rw [here', Option.map_some]
    show some ((({ s with service := (x.drop s.service).1 }.asDirect name).setSession
      (x.drop s.service).2).endSessionTasks x.name, []) = _
    rw [hset]
    rfl

/-- A session that stays as it is within the process changes nothing there. -/
theorem asDirect_of_same (distinct : s.Distinct) {x y : Session} (here : s.session? x.name = some x)
    (hname : y.name = x.name) (same : y.asDirect = x.asDirect) :
    (s.setSession y).asDirect x.name = s.asDirect x.name := by
  have hdirect : (s.asDirect x.name).session? x.asDirect.name = some x.asDirect := by
    show (s.asDirect x.name).session? x.name = _
    rw [session?_asDirect, here, Option.map_some, Session.asDirectIf_of_eq rfl]
  rw [← setSession_asDirect, Session.asDirectIf_of_eq hname, same]
  exact setSession_self (distinct_asDirect x.name distinct) hdirect

/-- What a session receives that shows nothing changes nothing within the process. -/
theorem asDirect_of_rests (distinct : s.Distinct) {x : Session} {ws : WebSocket}
    (here : s.session? x.name = some x) (wired : x.connection = .webSocket ws)
    (resting : x.rests = true) {r : Service × Session} (turn : x.choose? s.service .receive = some r) :
    (s.after r).1.asDirect x.name = s.asDirect x.name ∧ (s.after r).2 = [] := by
  obtain ⟨hservice, hsame, hphase⟩ := Session.asDirect_of_rests wired resting turn
  have hwaits : r.2.phase = .selects := hphase.trans (Session.picked_of_choose? turn).1
  have hname : r.2.name = x.name := name_of_acts (s := s) (.choose .receive r turn)
  have hafter : s.after r = (s.setSession r.2, []) := by
    unfold after
    dsimp only
    rw [hwaits, hservice]
  rw [hafter]
  exact ⟨asDirect_of_same distinct here hname hsame, rfl⟩

/-- What a session is within the process whose step does not end in failure. -/
theorem within_of_calm {r : Service × Session} (hname : r.2.name = name)
    (calm : ∀ e, .sessionEnded name (.error e) ∉ (s.after r).2) :
    Session.within r = (r.1, r.2.asDirectIf name) := by
  rw [Session.asDirectIf_of_eq hname]
  apply Session.within_of_calm
  intro e hphase
  exact calm e (mem_events_after.mpr ⟨hname, hphase⟩)

/-- A step of the session that shows something is the same action within the process. -/
theorem shown?_of_acts {x : Session} (here : s.session? x.name = some x) {r : Service × Session}
    (shows : a = .choose x.name .receive → x.rests = false) (acts : Acts s x a r) :
    shown? x.name ⟨s, a, t, events⟩ = some a := by
  cases acts with
  | forward | proceed => rfl
  | choose choice =>
    cases choice with
    | gone | relay => rfl
    | receive => simp [shown?, here, shows rfl]

/-- The session within the process is the one on the server. -/
theorem session?_asDirect_self {x : Session} (here : s.session? x.name = some x) :
    (s.asDirect x.name).session? x.asDirect.name = some x.asDirect := by
  show (s.asDirect x.name).session? x.name = _
  rw [session?_asDirect, here, Option.map_some, Session.asDirectIf_of_eq rfl]

/-- **A step of the session shows the same within the process**, unless it ends in failure. -/
theorem run_shown?_of_acts (distinct : s.Distinct) {x : Session} {ws : WebSocket}
    (here : s.session? x.name = some x) (wired : x.connection = .webSocket ws) {r : Service × Session}
    (acts : Acts s x a r) (calm : ∀ e, .sessionEnded x.name (.error e) ∉ (s.after r).2) :
    machine.run (s.asDirect x.name) (shown? x.name ⟨s, a, (s.after r).1, (s.after r).2⟩).toList =
      some ((s.after r).1.asDirect x.name, (s.after r).2) := by
  by_cases hsilent : a = .choose x.name .receive ∧ x.rests = true
  · obtain ⟨rfl, resting⟩ := hsilent
    cases acts with
    | choose _ _ turn =>
      obtain ⟨hsame, hnothing⟩ := asDirect_of_rests distinct here wired resting turn
      have hnone : shown? x.name ⟨s, .choose x.name .receive, (s.after r).1, (s.after r).2⟩ = none := by
        simp [shown?, here, resting]
      rw [hnone, hsame, hnothing]
      rfl
  · have shows : a = .choose x.name .receive → x.rests = false := by
      intro ha
      by_contra hrests
      exact hsilent ⟨ha, by simpa using hrests⟩
    rw [shown?_of_acts here shows acts, Option.toList_some, Machine.run_single]
    have hstep := step_of_acts (session?_asDirect_self here) (acts_within wired shows acts)
    rw [within_of_calm (name_of_acts acts) calm, after_asDirect] at hstep
    exact hstep

/-- **What the peer of the session does shows the same within the process.** -/
theorem run_shown?_of_peer (distinct : s.Distinct) {x : Session} {ws : WebSocket}
    (here : s.session? x.name = some x) (wired : x.connection = .webSocket ws) (event : PeerEvent) :
    machine.run (s.asDirect x.name) (shown? x.name ⟨s, .peer x.name event, t, []⟩).toList =
      some ((s.setSession { x with connection := x.connection.onPeer event }).asDirect x.name, []) := by
  have hshown : shown? x.name ⟨s, .peer x.name event, t, []⟩ =
      event.asDirect?.map fun event => .peer x.name (.direct event) := if_pos rfl
  have hpeer := Connection.asDirect_onPeer ws event
  have hconnection := Session.connection_asDirect wired
  rw [hshown]
  generalize hy : ({ x with connection := x.connection.onPeer event } : Session) = y
  have hname : y.name = x.name := by rw [← hy]
  have hdirect : y.asDirect = { x.asDirect with
      connection := event.asDirect?.elim (.direct ws.asDirect) fun event =>
        .direct (ws.asDirect.onPeer event) } := by
    rw [← hy, ← hpeer, ← wired]
    rfl
  cases hevent : event.asDirect? with
  | none =>
    have hsame : y.asDirect = x.asDirect := by
      rw [hdirect, hevent, Option.elim_none, ← hconnection]
    rw [Option.map_none, Option.toList_none, asDirect_of_same distinct here hname hsame]
    rfl
  | some shown =>
    have hset := setSession_asDirect s x.name y
    rw [Session.asDirectIf_of_eq hname, hdirect, hevent, Option.elim_some] at hset
    have hfound := session?_asDirect_self here
    rw [Option.map_some, Option.toList_some, Machine.run_single, ← hset]
    show ((s.asDirect x.name).session? x.asDirect.name).map _ = _
    rw [hfound, Option.map_some, hconnection]
    rfl

/-- To drop the session shows the same within the process. -/
theorem step_drop_asDirect {x : Session} (here : s.session? x.name = some x) :
    (s.asDirect x.name).step (.dropSession x.name) = some
      ((({ s with service := (x.drop s.service).1 }.setSession (x.drop s.service).2).endSessionTasks
        x.name).asDirect x.name, []) := by
  have hname : (x.drop s.service).2.name = x.name := (x.same_drop s.service).name
  have hset := setSession_asDirect { s with service := (x.drop s.service).1 } x.name
    (x.drop s.service).2
  rw [Session.asDirectIf_of_eq hname] at hset
  have hfound := session?_asDirect_self here
  have hdrop : x.asDirect.drop s.service = _ := Session.drop_asDirect s.service x
  show ((s.asDirect x.name).session? x.asDirect.name).map _ = _
  rw [hfound, Option.map_some]
  show some ((({ s with service := (x.asDirect.drop s.service).1 }.asDirect x.name).setSession
    (x.asDirect.drop s.service).2).endSessionTasks x.name, []) = _
  rw [hdrop, hset]
  rfl

/-- **A step shows the same within the process**, unless the session ends in failure. -/
theorem run_shown? (distinct : s.Distinct) (wired : OverSocket name s)
    (h : s.step a = some (t, events)) (calm : ∀ e, .sessionEnded name (.error e) ∉ events) :
    machine.run (s.asDirect name) (shown? name ⟨s, a, t, events⟩).toList =
      some (t.asDirect name, events) := by
  obtain ⟨x, here, hsocket⟩ := wired
  rcases own_or_apart here h with ⟨y, own, -⟩ | ⟨hturn, -⟩
  · obtain rfl := session_name here
    obtain ⟨ws, wired⟩ := Connection.exists_of_isSocket hsocket
    cases own with
    | acts r acts => exact run_shown?_of_acts distinct here wired acts calm
    | peer event => exact run_shown?_of_peer distinct here wired event
    | drops => exact (machine.run_single _ _).trans (step_drop_asDirect here)
  · have hstep : (s.asDirect name).step a = some (asDirectOf name (t, events)) := by
      cases hother : a.session? with
      | none =>
        have hknown : (s.session? name).isSome = true := by rw [here]; rfl
        rw [step_asDirect_of_others hknown hother, h]
        rfl
      | some other =>
        have hne : other ≠ name := by
          rintro rfl
          exact hturn hother
        exact step_asDirect_of_other h hother hne
    rw [shown?_of_others hturn]
    exact (machine.run_single _ _).trans hstep

/-- **A session that ends in failure ends well within the process**, and no failure is counted. -/
theorem spared_of_step (wired : OverSocket name s) (h : s.step a = some (t, events))
    {e : TransportError} (failed : .sessionEnded name (.error e) ∈ events) :
    ∃ u, machine.run (s.asDirect name) (shown? name ⟨s, a, t, events⟩).toList =
        some (u, [.sessionEnded name (.ok ())]) ∧
      u.service = { t.service with
        metrics := { t.service.metrics with errors := s.service.metrics.errors } } := by
  obtain ⟨x, here, hsocket⟩ := wired
  obtain ⟨ws, wired⟩ := Connection.exists_of_isSocket hsocket
  cases shows_of_step h with
  | other silent => exact absurd failed (silent name _)
  | session y here' r acts after =>
    obtain ⟨rfl, rfl⟩ := Prod.ext_iff.mp after
    obtain ⟨hname, hphase⟩ := mem_events_after.mp failed
    have hyname : y.name = name := (name_of_acts acts).symm.trans hname
    subst hyname
    obtain rfl := Option.some.inj (here.symm.trans here')
    have shows : a = .choose x.name .receive → x.rests = false := by
      rintro rfl
      by_contra hrests
      cases acts with
      | choose _ _ turn =>
        obtain ⟨-, -, hstays⟩ := Session.asDirect_of_rests wired (by simpa using hrests) turn
        rw [hphase, (Session.picked_of_choose? turn).1] at hstays
        cases hstays
    have hwithin : Session.within r = ({ r.1 with
        metrics := { r.1.metrics with errors := r.1.metrics.errors - 1 } },
        { r.2.asDirect with phase := .ended (.ok ()) }) := by
      unfold Session.within
      rw [hphase]
    have hcounted : r.1.metrics.errors = s.service.metrics.errors + 1 := by
      rw [errors_of_acts acts, hphase]
      rfl
    refine ⟨((s.asDirect x.name).after (Session.within r)).1, ?_, ?_⟩
    · rw [shown?_of_acts here shows acts, Option.toList_some, Machine.run_single]
      have hstep := step_of_acts (session?_asDirect_self here) (acts_within wired shows acts)
      have hevents : ((s.asDirect x.name).after (Session.within r)).2 =
          [.sessionEnded x.name (.ok ())] := by
        rw [events_after, hwithin]
        show [Event.sessionEnded r.2.name (.ok ())] = _
        rw [hname]
      exact hstep.trans (congrArg some (Prod.ext rfl hevents))
    · rw [service_after, service_after, hwithin, hcounted]
      rfl

/-! ### Runs -/

variable {start : Server} {steps : List Step}

/-- No two sessions have one name, and a session keeps the kind of its connection. -/
theorem overSocket_of_history (h : machine.History start s steps) (distinct : start.Distinct)
    (wired : OverSocket name start) : s.Distinct ∧ OverSocket name s :=
  h.invariant (P := fun s => s.Distinct ∧ OverSocket name s) ⟨distinct, wired⟩ fun _ _ _ _ kept hstep =>
    ⟨distinct_of_step kept.1 hstep, overSocket_of_step kept.2 hstep⟩

/-- **A run shows the same within the process**, as long as the session does not end in failure. -/
theorem run_of_history (h : machine.History start s steps) (distinct : start.Distinct)
    (wired : OverSocket name start)
    (calm : ∀ z ∈ steps, ∀ e, .sessionEnded name (.error e) ∉ z.events) :
    machine.run (start.asDirect name) (steps.filterMap (shown? name)) =
      some (s.asDirect name, steps.flatMap (·.events)) := by
  induction h with
  | start => rfl
  | @step u t steps a events hu hstep ih =>
    obtain ⟨hdistinct, hwired⟩ := overSocket_of_history hu distinct wired
    have hbefore := ih fun z hz => calm z (List.mem_append_left _ hz)
    have hcalm := calm ⟨u, a, t, events⟩ (List.mem_append_right _ (List.mem_singleton.mpr rfl))
    have hlast := run_shown? hdistinct hwired hstep hcalm
    rw [filterMap_concat, List.flatMap_append, List.flatMap_singleton]
    exact Machine.run_append hbefore hlast

/-- **A run from the opening of a session shows the same** where it is opened within the process, as
long as it does not end in failure. -/
theorem run_of_opening {p : Principal} (opened : t.openSession? name p (.webSocket {}) = some start)
    (distinct : t.Distinct) (h : machine.History start s steps)
    (calm : ∀ z ∈ steps, ∀ e, .sessionEnded name (.error e) ∉ z.events) :
    machine.run t (.openSession name p (.direct {}) :: steps.filterMap (shown? name)) =
      some (s.asDirect name, steps.flatMap (·.events)) := by
  have hstep : t.step (.openSession name p (.webSocket {})) = some (start, []) := by
    show (t.openSession? name p (.webSocket {})).map (·, []) = _
    rw [opened, Option.map_some]
  have hwired : OverSocket name start := ⟨_, session?_of_opened opened, rfl⟩
  have hopening : machine.run t [.openSession name p (.direct {})] = some (start.asDirect name, []) := by
    rw [Machine.run_single]
    show (t.openSession? name p (.direct {})).map (·, []) = _
    rw [openSession?_direct opened, Option.map_some]
  exact Machine.run_append hopening (run_of_history h (distinct_of_step distinct hstep) hwired calm)

end Server
end DeviceRelay
