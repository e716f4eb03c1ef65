/-
# A peer that is gone ends a session well, but for a WebSocket that notices it late

A session over a WebSocket ends in failure in just two steps: as it tries to send a frame to a peer
that is gone, whether it closed the connection or was cut off, and as it has received all that was sent
before the connection was cut. That failure is counted. Within the process, where the peer does the
same, the session ends well in that very step, and no failure is counted; and unless there is such a
step, everything is the same there. Over either connection a session whose peer is gone ends after a
few more steps of its own.

Key definitions: `Action.isStepOf`, `Server.Late`, `Server.Parted`, `Server.outcome`.
Key theorems: `Server.fails_iff_late`, `Server.turnsLeft_of_history`,
`Server.exists_step_of_deserted`, `Server.parted_of_history`, `Server.failed_of_farewell`.
-/
import DeviceRelay.Proofs.Server.Mirrors
import DeviceRelay.Proofs.Server.Requests
import DeviceRelay.Proofs.Session.Partings

namespace DeviceRelay

/-- Whether an action is a step that a session of some name makes itself. -/
def Action.isStepOf (name : String) : Action → Bool
  | .choose other _ | .run (.session other) => other = name
  | _ => false

namespace Server

variable {s t : Server} {a : Action} {events : List Event} {name : String}

/-! ### Failures -/

/-- A session over a WebSocket notices in a step that its peer is gone, as it tries to send a frame,
or that its connection was cut, as it has received all that was sent before. -/
inductive Late (name : String) (z : Step) : TransportError → Prop where
  | sends (asked : z.action = .run (.session name)) (x : Session) (ws : WebSocket)
    (frame : OutboundFrame) (here : z.before.session? name = some x)
    (wired : x.connection = .webSocket ws) (due : x.phase = .sends frame)
    (gone : ws.peer ≠ .connected) : Late name z WebSocket.sendRefusal
  | receives (asked : z.action = .choose name .receive) (x : Session) (ws : WebSocket)
    (here : z.before.session? name = some x) (wired : x.connection = .webSocket ws)
    (taken : ws.toServer = []) (cut : ws.peer = .cut) : Late name z WebSocket.cutFailure

/-- A session over a WebSocket fails just when it is late. -/
theorem fails_iff_late {z : Step} (wired : OverSocket name z.before) {e : TransportError} :
    Fails name z e ↔ Late name z e := by
  obtain ⟨x, here, hsocket⟩ := wired
  obtain ⟨ws, wired⟩ := Connection.exists_of_isSocket hsocket
  constructor
  · rintro (⟨hevent, notLeft, serious⟩ | ⟨frame, htried, notLeft⟩)
    · obtain ⟨asked, x', connection, here', received⟩ := eventOf?_some hevent
      obtain rfl := Option.some.inj (here.symm.trans here')
      rw [wired] at received
      obtain ⟨ws', -, hreceived⟩ := Session.webSocket_of_receive? received
      obtain ⟨taken, cut, rfl⟩ := (ws.receive?_fails_iff notLeft serious).mp ⟨ws', hreceived⟩
      exact .receives asked x ws here wired taken cut
    · obtain ⟨asked, x', here', due, unsent⟩ := triedIn?_some htried
      obtain rfl := Option.some.inj (here.symm.trans here')
      have gone : ws.peer ≠ .connected := by
        intro hpeer
        have hsent := (WebSocket.send_of_connected hpeer frame.text).1
        rw [wired] at unsent
        cases hsent.symm.trans unsent
      have hrefused := (WebSocket.send_of_gone gone frame.text).1
      rw [wired] at unsent
      have hcause : Except.error WebSocket.sendRefusal = Except.error e :=
        (congrArg Prod.snd hrefused).symm.trans unsent
      obtain rfl := Except.error.inj hcause
      exact .sends asked x ws frame here wired due gone
  · intro late
    cases late with
    | sends asked x' ws' frame here' wired' due gone =>
      have hrefused := (WebSocket.send_of_gone gone frame.text).1
      refine .inr ⟨frame, ?_, WebSocket.sendRefusal_ne⟩
      simp [triedIn?, asked, here', Session.tries?, due, wired', Connection.send, hrefused]
    | receives asked x' ws' here' wired' taken cut =>
      obtain ⟨notLeft, serious⟩ := WebSocket.cutFailure_serious
      obtain ⟨ws'', hreceived⟩ := (ws'.receive?_fails_iff notLeft serious).mpr ⟨taken, cut, rfl⟩
      refine .inl ⟨?_, notLeft, serious⟩
      simp [eventOf?, asked, here', wired', Connection.receive?, hreceived]

/-- A session that ended. -/
def Finished (name : String) (s : Server) : Prop :=
  ∃ x result, s.session? name = some x ∧ x.phase = .ended result

/-- A session that ended stays so. -/
theorem finished_of_step (ended : Finished name s) (h : s.step a = some (t, events)) :
    Finished name t := by
  obtain ⟨x, result, here, hphase⟩ := ended
  cases becomes_of_turn (turn_of_step h) name with
  | rests _ after => exact ⟨x, result, after.trans here, hphase⟩
  | joins _ new => exact absurd here (by simp [new])
  | acts x' here' r turn _ after =>
    obtain rfl := Option.some.inj (here.symm.trans here')
    cases turn with
    | forward _ turn =>
      have hruns := runs_of_forwarded turn
      simp [Session.isRunning, hphase] at hruns
    | choose _ _ waits => simp [hphase] at waits
    | proceed _ turn =>
      cases turn with
      | publishes _ _ before | sends _ before | ends _ before => simp [hphase] at before
    | drop =>
      have hdrop : (x.drop s.service).2 = x := by simp [Session.drop, Session.isRunning, hphase]
      exact ⟨x, result, hdrop ▸ after, hphase⟩
    | peer event => exact ⟨_, result, after, hphase⟩

theorem not_late_of_finished {z : Step} (ended : Finished name z.before)
    (h : z.before.step z.action = some (z.after, z.events)) (e : TransportError) :
    ¬ Late name z e := by
  obtain ⟨x, result, here, hphase⟩ := ended
  intro late
  cases late with
  | sends asked x' ws frame here' wired due gone =>
    obtain rfl := Option.some.inj (here.symm.trans here')
    simp [hphase] at due
  | receives asked x' ws here' wired taken cut =>
    obtain rfl := Option.some.inj (here.symm.trans here')
    obtain rfl := session_name here
    rw [asked] at h
    obtain ⟨r, turn, -⟩ := choose_some here h
    have hwaits := (Session.picked_of_choose? turn).1
    simp [hphase] at hwaits

/-! ### A peer that is gone -/

/-- **A session whose peer is gone has fewer steps left** after each that it makes. -/
theorem turnsLeft_of_own {x y : Session} (deserted : x.connection.Deserted) (publishing : x.Publishes)
    (own : Own s x a y t events) :
    y.turnsLeft + (if a.isStepOf x.name then 1 else 0) ≤ x.turnsLeft := by
  cases own with
  | acts r acts =>
    cases acts with
    | forward _ turn =>
      rw [Session.turnsLeft_of_forward? turn]
      exact Nat.le_refl _
    | choose choice _ turn =>
      have hless := Session.turnsLeft_of_choose? turn
      simp only [Action.isStepOf, decide_true, if_true]
      exact hless
    | proceed _ turn =>
      have hless := Session.turnsLeft_of_proceed? deserted publishing turn
      simp only [Action.isStepOf, decide_true, if_true]
      exact hless
  | peer event =>
    have hwaiting := Connection.waiting_onPeer deserted event
    have hsame : { x with connection := x.connection.onPeer event }.turnsLeft = x.turnsLeft := by
      unfold Session.turnsLeft
      dsimp only
      rw [hwaiting]
    rw [hsame]
    exact Nat.le_refl _
  | drops => exact x.turnsLeft_drop_le s.service

theorem isStepOf_of_apart (apart : a.session? ≠ some name) : a.isStepOf name = false := by
  unfold Action.isStepOf
  split
  · exact decide_eq_false fun h => apart (congrArg some h)
  · exact decide_eq_false fun h => apart (congrArg some h)
  · rfl

/-- A peer that is gone stays so, and its session has no more steps left than it had. -/
theorem turnsLeft_of_step (S : s.Sound) {x : Session} (here : s.session? name = some x)
    (deserted : x.connection.Deserted) (h : s.step a = some (t, events)) :
    ∃ y, t.session? name = some y ∧ y.connection.Deserted ∧
      y.turnsLeft + (if a.isStepOf name then 1 else 0) ≤ x.turnsLeft := by
  rcases own_or_apart here h with ⟨y, own, hy⟩ | ⟨apart, hsame⟩
  · obtain rfl := session_name here
    have hleft := turnsLeft_of_own deserted (S.sessions x (session_some here)) own
    exact ⟨y, hy, stable_of_own Connection.stable_deserted deserted own, hleft⟩
  · refine ⟨x, hsame, deserted, ?_⟩
    rw [isStepOf_of_apart apart]
    exact Nat.le_refl _

/-- **A session whose peer is gone need not wait** as long as it runs. -/
theorem exists_step_of_deserted (S : s.Sound) {x : Session} (here : s.session? name = some x)
    (deserted : x.connection.Deserted) (runs : x.isRunning = true) :
    ∃ a, a.isStepOf name = true ∧ (s.step a).isSome = true := by
  obtain rfl := session_name here
  have publishing := S.sessions x (session_some here)
  rcases Session.exists_turn_of_deserted s.service deserted publishing runs with ⟨r, turn⟩ | ⟨r, turn⟩
  · refine ⟨.choose x.name .receive, decide_eq_true rfl, ?_⟩
    rw [step_of_acts here (.choose .receive r turn)]
    rfl
  · refine ⟨.run (.session x.name), decide_eq_true rfl, ?_⟩
    rw [step_of_acts here (.proceed r turn)]
    rfl

/-! ### Runs -/

variable {start : Server} {steps : List Step}

/-- **A session whose peer is gone makes no more steps than it has left.** -/
theorem turnsLeft_of_history (h : machine.History start s steps) (S : start.Sound) {x : Session}
    (here : start.session? name = some x) (deserted : x.connection.Deserted) :
    ∃ y, s.session? name = some y ∧ y.connection.Deserted ∧
      y.turnsLeft + steps.countP (·.action.isStepOf name) ≤ x.turnsLeft := by
  induction h with
  | start => exact ⟨x, here, deserted, Nat.le_refl _⟩
  | @step u t steps a events hu hstep ih =>
    obtain ⟨y, hy, hgone, hbefore⟩ := ih
    obtain ⟨z, hz, hstays, hnow⟩ := turnsLeft_of_step (sound_of_history hu S) hy hgone hstep
    refine ⟨z, hz, hstays, ?_⟩
    rw [List.countP_append, List.countP_singleton]
    dsimp only
    omega

/-- What became of a session over a WebSocket in a run, and what becomes of it within the process,
where its peer does the same. -/
structure Parted (name : String) (start s : Server) (steps : List Step) : Prop where
  /-- It ends in failure just when it notices late that its peer is gone. -/
  failed : ∀ z ∈ steps, ∀ e, .sessionEnded name (.error e) ∈ z.events ↔ Late name z e
  /-- Where it ends, a failure is counted just if it is one. -/
  counted : ∀ z ∈ steps, ∀ result, .sessionEnded name result ∈ z.events →
    z.after.service.metrics.errors = z.before.service.metrics.errors + failures (.ended result)
  /-- It is late once at most. -/
  once : ∀ earlier z later e, steps = earlier ++ z :: later → Late name z e →
    ∀ y ∈ earlier ++ later, ∀ e', ¬ Late name y e'
  /-- If it is not, then everything is the same within the process. -/
  alike : (∀ z ∈ steps, ∀ e, ¬ Late name z e) →
    machine.run (start.asDirect name) (steps.filterMap (shown? name)) =
      some (s.asDirect name, steps.flatMap (·.events))
  /-- If it is, then up to there everything is the same, and within the process it ends well and no
  failure is counted. -/
  spared : ∀ earlier z later e, steps = earlier ++ z :: later → Late name z e →
    ∃ t, machine.run (start.asDirect name) ((earlier ++ [z]).filterMap (shown? name)) =
        some (t, earlier.flatMap (·.events) ++ [.sessionEnded name (.ok ())]) ∧
      t.service = { z.after.service with
        metrics := { z.after.service.metrics with errors := z.before.service.metrics.errors } }
  /-- Once its peer is gone, it makes but a few more steps, -/
  brief : ∀ x, start.session? name = some x → x.connection.Deserted →
    steps.countP (·.action.isStepOf name) ≤ x.connection.waiting + 5
  /-- and can make one until it has ended or was dropped. -/
  awake : ∀ x, s.session? name = some x → x.connection.Deserted → x.isRunning = true →
    ∃ a, a.isStepOf name = true ∧ (s.step a).isSome = true

/-- The end of a session is counted in its step if it is a failure. -/
theorem errors_of_ended (h : s.step a = some (t, events)) {result : Except TransportError Unit}
    (ended : .sessionEnded name result ∈ events) :
    t.service.metrics.errors = s.service.metrics.errors + failures (.ended result) := by
  cases shows_of_step h with
  | other silent => exact absurd ended (silent name result)
  | session x here r acts after =>
    obtain ⟨rfl, rfl⟩ := Prod.ext_iff.mp after
    obtain ⟨-, hphase⟩ := mem_events_after.mp ended
    rw [service_after, errors_of_acts acts, hphase]

theorem not_late_of_history (h : machine.History start s steps) (ended : Finished name start)
    {y : Step} (hy : y ∈ steps) (e : TransportError) : ¬ Late name y e := by
  obtain ⟨earlier, later, -, hbefore, hstep, -⟩ := h.of_mem hy
  have hended : Finished name y.before :=
    hbefore.invariant (P := Finished name) ended fun _ _ _ _ ended hstep =>
      finished_of_step ended hstep
  exact not_late_of_finished hended hstep e

theorem finished_of_late {z : Step} (wired : OverSocket name z.before)
    (h : z.before.step z.action = some (z.after, z.events)) {e : TransportError}
    (late : Late name z e) : Finished name z.after := by
  have hfailed := (failed_iff h).mpr ((fails_iff_late wired).mpr late)
  obtain ⟨y, hy, hphase, -⟩ := closed_of_ended h hfailed
  exact ⟨y, _, hy, hphase⟩

theorem late_once {earlier later : List Step} {z : Step} {e : TransportError}
    (h : machine.History start s (earlier ++ z :: later)) (distinct : start.Distinct)
    (wired : OverSocket name start) (late : Late name z e) {y : Step} (hy : y ∈ earlier ++ later)
    (e' : TransportError) : ¬ Late name y e' := by
  obtain ⟨u, hu, hrest⟩ := h.split
  obtain ⟨rfl, hstep, hlater⟩ := hrest.head
  rcases List.mem_append.mp hy with hy | hy
  · -- if it had been late before, it would have ended then
    intro hlate
    obtain ⟨before, after, -, hbefore, hystep, hafter⟩ := hu.of_mem hy
    have hwired := (overSocket_of_history hbefore distinct wired).2
    have hended : Finished name z.before := hafter.invariant (P := Finished name)
      (finished_of_late hwired hystep hlate) fun _ _ _ _ ended hstep => finished_of_step ended hstep
    exact not_late_of_finished hended hstep e late
  · have hwired := (overSocket_of_history hu distinct wired).2
    exact not_late_of_history hlater (finished_of_late hwired hstep late) hy e'

/-- **Over a WebSocket a session ends in failure just when it notices late that its peer is gone**,
in every run of a server, from any time on. Within the process, where its peer does the same, it ends
well. -/
theorem parted_of_history {config : Config} {epoch : Int} {first : Server} {past : List Step}
    (hstart : ofConfig config epoch = .ok first) (hpast : machine.History first start past) {x : Session}
    {ws : WebSocket} (here : start.session? name = some x) (wired : x.connection = .webSocket ws)
    (h : machine.History start s steps) : Parted name start s steps := by
  have distinct : start.Distinct := by
    apply hpast.invariant (P := Distinct) _ fun _ _ _ _ distinct hstep => distinct_of_step distinct hstep
    unfold Distinct
    rw [(ofConfig_ok hstart).2.2]
    exact List.nodup_nil
  have wired : OverSocket name start := ⟨x, here, by rw [wired]; rfl⟩
  have S : start.Sound := sound_of_history hpast (ofConfig_sound hstart)
  have hstep : ∀ z ∈ steps, OverSocket name z.before ∧
      z.before.step z.action = some (z.after, z.events) := by
    intro z hz
    obtain ⟨_, _, -, hbefore, hstep, -⟩ := h.of_mem hz
    exact ⟨(overSocket_of_history hbefore distinct wired).2, hstep⟩
  have failed : ∀ z ∈ steps, ∀ e, .sessionEnded name (.error e) ∈ z.events ↔ Late name z e :=
    fun z hz e => (failed_iff (hstep z hz).2).trans (fails_iff_late (hstep z hz).1)
  constructor
  case failed => exact failed
  case counted => exact fun z hz result ended => errors_of_ended (hstep z hz).2 ended
  case once =>
    rintro earlier z later e rfl late y hy e'
    exact late_once h distinct wired late hy e'
  case alike =>
    intro timely
    exact run_of_history h distinct wired fun z hz e ended =>
      timely z hz e ((failed z hz e).mp ended)
  case spared =>
    rintro earlier z later e rfl late
    obtain ⟨hwired, hlast⟩ := hstep z (by simp)
    obtain ⟨u, hu, hrest⟩ := h.split
    obtain ⟨rfl, -, -⟩ := hrest.head
    have calm : ∀ y ∈ earlier, ∀ e', .sessionEnded name (.error e') ∉ y.events := by
      intro y hy e' ended
      refine late_once h distinct wired late (List.mem_append_left _ hy) e' ?_
      exact (failed y (List.mem_append_left _ hy) e').mp ended
    obtain ⟨t, hspared, hservice⟩ :=
      spared_of_step hwired hlast ((failed z (by simp) e).mpr late)
    refine ⟨t, ?_, hservice⟩
    rw [filterMap_concat]
    exact Machine.run_append (run_of_history hu distinct wired calm) hspared
  case brief =>
    intro y hy deserted
    obtain ⟨_, -, -, hleft⟩ := turnsLeft_of_history h S hy deserted
    have hmost := y.turnsLeft_le
    omega
  case awake =>
    intro y hy deserted runs
    exact exists_step_of_deserted (sound_of_history h S) hy deserted runs

/-! ### A farewell -/

/-- A session is opened over a WebSocket. -/
def attendance : List Action := [.openSession "s" hermit (.webSocket {})]

theorem replay_attendance : (machine.replay solitaryStart attendance).isSome = true := by
  decide +kernel

/-- The server at that time. -/
def attendedStart : Server := ((machine.replay solitaryStart attendance).get replay_attendance).1

/-- A peer sends a text that is no request, and closes the connection before it is replied to. -/
def farewell : List Action :=
  [.peer "s" (.webSocket (.message (.text "?"))), .choose "s" .receive,
    .peer "s" (.webSocket .close), .run (.session "s")]

theorem replay_farewell : (machine.replay attendedStart farewell).isSome = true := by decide +kernel

/-- After a farewell the session has failed, and it would have ended well within the process. -/
theorem parted_of_farewell : ∃ (first start s : Server) (past steps : List Step) (x : Session)
    (ws : WebSocket), ofConfig solitary 0 = .ok first ∧ machine.History first start past ∧
      start.session? "s" = some x ∧ x.connection = .webSocket ws ∧ machine.History start s steps ∧
      steps.map (·.action) = farewell ∧ Parted "s" start s steps := by
  have hstart : ofConfig solitary 0 = .ok solitaryStart := rfl
  have hpast := Machine.history_of_replayed replay_attendance
  have h := Machine.history_of_replayed replay_farewell
  have hactions := Machine.actions_of_replay (Option.some_get replay_farewell).symm
  have here : attendedStart.session? "s" = some _ := rfl
  exact ⟨_, _, _, _, _, _, _, hstart, hpast, here, rfl, h, hactions,
    parted_of_history hstart hpast here rfl h⟩

/-- The end of a session that an event tells. -/
def endOf? : Event → Option (String × Except TransportError Unit)
  | .sessionEnded name result => some (name, result)
  | _ => none

/-- The ends of sessions in a run, and how many failures are counted then. -/
def outcome (r : Server × List Event) : List (String × Except TransportError Unit) × Nat :=
  (r.2.filterMap endOf?, r.1.service.metrics.errors)

/-- **A peer that closes the connection makes a session fail** over a WebSocket and not within the
process, if the session has a reply to send, and so does one whose connection is cut. -/
theorem failed_of_farewell :
    (machine.run solitaryStart (attendance ++ farewell)).map outcome =
      some ([("s", .error WebSocket.sendRefusal)], 1) ∧
    (machine.run solitaryStart [.openSession "s" hermit (.direct {}),
        .peer "s" (.direct (.text "?")), .choose "s" .receive, .peer "s" (.direct .leave),
        .run (.session "s")]).map outcome = some ([("s", .ok ())], 0) ∧
    (machine.run solitaryStart [.openSession "m" hermit (.direct {}),
        .openSession "w" hermit (.webSocket {}), .peer "m" (.direct .leave), .choose "m" .receive,
        .peer "w" (.webSocket .cut), .choose "w" .receive]).map outcome =
      some ([("m", .ok ()), ("w", .error WebSocket.cutFailure)], 1) := by
  refine ⟨?_, ?_, ?_⟩ <;> rfl

end Server
end DeviceRelay
