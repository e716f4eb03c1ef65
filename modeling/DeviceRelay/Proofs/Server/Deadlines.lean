/-
# A session hears from its forwarder until it ends

The forwarder of a session asks the clock for a deadline each time it begins to wait in a line.
While the clock can name the deadline and the queues can be used, no forwarder stops before its
session ends, and no session ends as its forwarder stopped. This is so for all runs up to a
moment just if the clock can name the time of consuming after that moment; the time is as
configured and may be beyond the clock.

Key definitions: `Server.Patient`, `Server.Supplied`, `Server.Calm`, `Server.Unbroken`.
Key theorems: `Server.supplied_of_step`, `Server.unbroken_of_history`, `Server.unbroken_iff`.
-/
import DeviceRelay.Proofs.Relay.Deadlines
import DeviceRelay.Proofs.Server.Endings
import DeviceRelay.Proofs.Server.Settings

namespace DeviceRelay
namespace Server

/-- A consumer for a session waits for the given time, and passes over what is no message. -/
def Patient (timeout : Nat) (c : Consumer Party) : Prop :=
  ∀ name, c.call = .session name → c.timeout = timeout ∧ c.skips = true

theorem indifferent_patient (timeout : Nat) : Consumer.Indifferent (Patient timeout) :=
  fun _ _ h => h

/-- How long the forwarders of a server wait, in milliseconds. -/
def patience (s : Server) : Nat := s.service.config.relay.consumeTimeout * 1000

/-- What holds as long as no forwarder stopped before its session ended. -/
structure Supplied (s : Server) : Prop where
  patient : ∀ c ∈ s.service.relay.consumers, Patient s.patience c
  served : ∀ name x, s.session? name = some x → x.isRunning = true → x.forwarder ≠ .stopped

/-- The queues can be used, and it is not later than a moment. -/
structure Calm (moment : Nat) (s : Server) : Prop where
  usable : s.service.relay.fault = none
  early : s.service.clock.now ≤ moment

variable {start s t : Server} {a : Action} {events : List Event} {steps : List Step}
  {x : Session} {r : Service × Session} {moment : Nat}

/-! ### Consumers -/

theorem patient_of_step? {timeout : Nat} {v : Service}
    (all : ∀ c ∈ v.relay.consumers, Patient timeout c) {party : Party} {phase : Phase}
    {m : Move} (h : v.step? party phase = some m)
    (own : (∃ label, party = .call label) ∨ phase.publishes) :
    ∀ c ∈ m.service.relay.consumers, Patient timeout c := by
  cases Service.mailed_of_step? h with
  | idle idle =>
    rw [idle.relay]
    exact all
  | carries _ _ _ _ _ _ relay =>
    rw [relay]
    exact all
  | queued letter _ _ _ relay =>
    rw [relay]
    unfold Relay.publish
    split <;> exact all
  | begins recipient timeout before _ relay =>
    rcases own with ⟨label, rfl⟩ | publishes
    · rw [relay]
      intro c hc
      rcases List.mem_append.mp hc with hc | hc
      · exact all c hc
      · obtain rfl := List.mem_singleton.mp hc
        exact nofun
    · exact (before ▸ publishes).elim
  | consumes _ consumed? run => exact Relay.consumers_of_run? (indifferent_patient timeout) all run

theorem patient_finish {timeout : Nat} {v : Service}
    (all : ∀ c ∈ v.relay.consumers, Patient timeout c) (x : Session)
    (result : Except TransportError Unit) :
    ∀ c ∈ (x.finish v result).1.relay.consumers, Patient timeout c :=
  Relay.consumers_abandon all _

theorem patient_of_session (S : s.Sound)
    (all : ∀ c ∈ s.service.relay.consumers, Patient s.patience c)
    (here : s.session? x.name = some x) (turn : SessionTurn s x a r) :
    ∀ c ∈ r.1.relay.consumers, Patient s.patience c := by
  cases turn with
  | forward _ turn =>
    cases turn with
    | reserves _ _ _ after =>
      subst after
      intro c hc
      rcases List.mem_append.mp hc with hc | hc
      · exact all c hc
      · obtain rfl := List.mem_singleton.mp hc
        exact fun _ _ => ⟨rfl, rfl⟩
    | consumes _ _ _ _ run after =>
      subst after
      exact Relay.consumers_of_run? (indifferent_patient _) all run
  | choose _ _ _ turn =>
    cases turn with
    | keeps _ _ after | hears _ _ _ _ after | refuses _ _ _ after | takes _ _ after =>
      subst after
      exact all
    | ends connection _ result after =>
      subst after
      exact patient_finish all _ result
  | proceed _ turn =>
    cases turn with
    | publishes _ _ before _ moves after =>
      subst after
      exact patient_of_step? all moves (.inr (S.sessions x (session_some here) _ _ before))
    | sends _ _ _ _ after =>
      subst after
      exact all
    | ends _ _ connection _ result after =>
      subst after
      exact patient_finish all _ result
  | drop =>
    unfold Session.drop
    split
    · exact Relay.consumers_abandon all _
    · exact all
  | peer => exact all

theorem patient_of_turn (S : s.Sound) (all : ∀ c ∈ s.service.relay.consumers, Patient s.patience c)
    (T : Turn s a t) : ∀ c ∈ t.service.relay.consumers, Patient s.patience c := by
  cases T with
  | still _ _ _ relay | begins _ _ _ _ _ _ relay | opens _ _ _ _ _ _ relay | raw _ _ _ relay =>
    rw [relay]
    exact all
  | call label c _ _ _ moves service =>
    rw [service]
    exact patient_of_step? all moves (.inl ⟨label, rfl⟩)
  | session x here r turn relay =>
    rw [relay]
    exact patient_of_session S all here turn
  | dropCall _ _ relay =>
    rw [relay]
    exact Relay.consumers_abandon all _

/-! ### Sessions -/

/-- **A forwarder stops only beyond the clock**, if the queues can be used. -/
theorem served_of_session (I : s.Supplied) (calm : s.Calm moment)
    (within : moment / 1000 + s.service.config.relay.consumeTimeout ≤ clockRange)
    (here : s.session? x.name = some x) (turn : SessionTurn s x a r) (runs : r.2.isRunning = true) :
    r.2.forwarder ≠ .stopped := by
  have served := I.served x.name x here
  cases turn with
  | forward _ turn =>
    cases turn with
    | reserves _ _ _ after =>
      subst after
      exact nofun
    | consumes running busy relay consumed? run after =>
      subst after
      cases consumed? with
      | none => exact served running
      | some consumed =>
        obtain ⟨c, hc, hcall, ends⟩ := Relay.ends_of_run? run
        obtain ⟨htimeout, hskips⟩ := I.patient c hc x.name hcall
        cases ends with
        | message | nothing => exact nofun
        | undecodable strict => simp [hskips] at strict
        | failed cause unusable => simp [calm.usable] at unusable
        | beyondClock beyond =>
          rw [htimeout, patience, deadline?_eq_none_iff] at beyond
          have hearly := Nat.div_le_div_right (c := 1000) calm.early
          omega
  | choose _ _ waits turn =>
    have running : x.isRunning = true := by rw [Session.isRunning, waits]
    cases turn with
    | keeps _ _ after | refuses _ _ _ after | takes _ _ after =>
      subst after
      exact served running
    | hears _ connection text _ after =>
      subst after
      unfold Session.takeText
      split <;> exact served running
    | ends _ _ _ after =>
      subst after
      cases runs
  | proceed _ turn =>
    cases turn with
    | publishes _ _ before _ _ after | sends _ before _ _ after =>
      subst after
      exact served (by rw [Session.isRunning, before])
    | ends _ _ _ _ _ after =>
      subst after
      cases runs
  | drop => simp [Session.isRunning_drop] at runs
  | peer => exact served runs

theorem supplied_of_step (S : s.Sound) (I : s.Supplied) (calm : s.Calm moment)
    (within : moment / 1000 + s.service.config.relay.consumeTimeout ≤ clockRange)
    (h : s.step a = some (t, events)) : t.Supplied := by
  have T := turn_of_step h
  constructor
  case patient =>
    have hpatience : t.patience = s.patience :=
      congrArg (fun settings => settings.1.relay.consumeTimeout * 1000) (settings_of_step h)
    rw [hpatience]
    exact patient_of_turn S I.patient T
  case served =>
    intro name y hy runs
    cases becomes_of_turn T name with
    | acts x here r turn _ after =>
      obtain rfl := Option.some.inj (after.symm.trans hy)
      obtain rfl := session_name here
      exact served_of_session I calm within here turn runs
    | rests _ after => exact I.served name y (after.symm.trans hy) runs
    | joins _ _ p connection after =>
      obtain rfl := Option.some.inj (after.symm.trans hy)
      exact nofun

/-! ### Runs -/

theorem ofConfig_supplied {config : Config} {epoch : Int} (h : ofConfig config epoch = .ok s) :
    s.Supplied := by
  obtain ⟨directory, limits, rfl⟩ := ofConfig_eq h
  exact ⟨fun _ hc => absurd hc List.not_mem_nil, fun _ _ hx => absurd hx (by simp [session?])⟩

/-- In a run no forwarder stopped before its session ended. -/
structure Unbroken (s : Server) (steps : List Step) : Prop where
  /-- The forwarder of a session that runs was not stopped. -/
  served : ∀ name x, s.session? name = some x → x.isRunning = true → x.forwarder ≠ .stopped
  /-- No session ended when it took up that nothing more comes from its forwarder. -/
  heard : ∀ z ∈ steps, ∀ name result, z.action = .choose name .relay →
    .sessionEnded name result ∉ z.events

variable {config : Config} {epoch : Int}

theorem supplied_of_history (hstart : ofConfig config epoch = .ok start)
    (within : moment / 1000 + config.relay.consumeTimeout ≤ clockRange)
    (h : machine.History start s steps) (calm : ∀ z ∈ steps, z.before.Calm moment) :
    s.Supplied := by
  induction h with
  | start => exact ofConfig_supplied hstart
  | @step u t steps a events h hstep ih =>
    have S := sound_of_history h (ofConfig_sound hstart)
    have I := ih fun z hz => calm z (List.mem_append_left _ hz)
    have hcalm : u.Calm moment := calm _ List.mem_concat_self
    have hconfig : u.service.config = config :=
      (congrArg Prod.fst (settings_of_history h)).trans
        (congrArg Service.Lasting.config (ofConfig_lasting hstart))
    exact supplied_of_step S I hcalm (hconfig ▸ within) hstep

/-- A session that ends as nothing more comes from its forwarder has one that stopped. -/
theorem stopped_of_ended {name : String} {result : Except TransportError Unit}
    (h : s.step (.choose name .relay) = some (t, events))
    (hended : .sessionEnded name result ∈ events) :
    ∃ x, s.session? name = some x ∧ x.isRunning = true ∧ x.forwarder = .stopped := by
  obtain ⟨x, here, parts⟩ := (parts_iff h).mp hended
  obtain rfl := session_name here
  obtain ⟨r, turn, -⟩ := choose_some here h
  have hwaits := (Session.chosen_of_choose? turn).1
  refine ⟨x, here, by rw [Session.isRunning, hwaits], ?_⟩
  generalize ha : Action.choose x.name .relay = a at parts
  cases parts with
  | leaves choice _ leaves =>
    obtain rfl := (Action.choose.inj ha).2
    cases leaves with
    | alone _ stopped => exact stopped
  | breaks => cases ha

/-- **While the clock can name the deadlines, no session loses its forwarder.** -/
theorem unbroken_of_history (hstart : ofConfig config epoch = .ok start)
    (within : moment / 1000 + config.relay.consumeTimeout ≤ clockRange)
    (h : machine.History start s steps) (calm : ∀ z ∈ steps, z.before.Calm moment) :
    Unbroken s steps := by
  constructor
  case served => exact (supplied_of_history hstart within h calm).served
  case heard =>
    intro z hz name result asked hended
    obtain ⟨earlier, later, rfl, hbefore, hstep, -⟩ := h.of_mem hz
    have I := supplied_of_history hstart within hbefore fun y hy =>
      calm y (List.mem_append_left _ hy)
    rw [asked] at hstep
    obtain ⟨x, here, runs, stopped⟩ := stopped_of_ended hstep hended
    exact I.served name x here runs stopped

/-! ### Beyond the clock -/

theorem forward_some (here : s.session? x.name = some x) (turn : x.forward? s.service = some r) :
    s.step (.run (.forward x.name)) = some (s.after r) := by
  simp [step, runTask?, runForward?, here, turn]

/-- A session that is about to ask the clock for a deadline that it cannot name. -/
structure Doomed (s : Server) (x : Session) : Prop where
  here : s.session? x.name = some x
  waits : x.phase = .selects
  idle : x.forwarder = .reserves
  free : x.slot = none
  alone : s.service.relay.consumers = []
  usable : s.service.relay.fault = none
  beyond : deadline? s.service.clock.now s.patience = none

/-- The session once its forwarder began to consume. -/
def enlisted (s : Server) (x : Session) : Service × Session :=
  ({ s.service with
      relay := s.service.relay.begin (.session x.name) x.principal.id s.patience true },
    { x with forwarder := .consumes })

theorem Doomed.begins (D : s.Doomed x) : x.forward? s.service = some (s.enlisted x) := by
  simp [Session.forward?, Session.isRunning, D.waits, D.idle, D.free, enlisted, patience]

theorem Doomed.stops (D : s.Doomed x) : ∃ w, (s.enlisted x).2.forward? (s.enlisted x).1 =
    some (w, { x with forwarder := .stopped }) := by
  simp [Session.forward?, Session.isRunning, D.waits, Relay.run?, Relay.begin, D.alone, D.usable,
    Queues.beginPop, D.beyond, Relay.finish, enlisted]

/-- **Two steps stop its forwarder.** -/
theorem Doomed.stopped (D : s.Doomed x) : ∃ u first t last,
    s.step (.run (.forward x.name)) = some (u, first) ∧
      u.step (.run (.forward x.name)) = some (t, last) ∧ u.service = (s.enlisted x).1 ∧
      ∃ y, t.session? x.name = some y ∧ y.isRunning = true ∧ y.forwarder = .stopped := by
  have hservice := s.service_after (s.enlisted x)
  have hhere := session?_after (x := x) (r := s.enlisted x) D.here rfl
  obtain ⟨w, hw⟩ := D.stops
  have hfirst := forward_some D.here D.begins
  have hlast := forward_some (x := (s.enlisted x).2) hhere (hservice.symm ▸ hw)
  have hstopped := session?_after (x := (s.enlisted x).2)
    (r := (w, { x with forwarder := .stopped })) hhere rfl
  exact ⟨_, _, _, _, hfirst, hlast, hservice, _, hstopped,
    by rw [Session.isRunning, D.waits], rfl⟩

/-- A session that begins at a moment. -/
def latecomer : Session where
  name := "a"
  principal := ⟨⟨1⟩, "", false⟩
  connection := .direct {}

/-- A server at a moment, with one session. -/
def late (s : Server) (moment : Nat) : Server :=
  { s with
    service := Session.countStart
      { s.service with clock := { s.service.clock with now := moment } }
    sessions := [latecomer]
    tasks := [.forward latecomer.name, .session latecomer.name] }

theorem doomed_late (hstart : ofConfig config epoch = .ok start)
    (beyond : clockRange < moment / 1000 + config.relay.consumeTimeout) :
    (start.late moment).Doomed latecomer := by
  obtain ⟨directory, limits, rfl⟩ := ofConfig_eq hstart
  exact ⟨rfl, rfl, rfl, rfl, rfl, rfl, (deadline?_eq_none_iff _ _).mpr beyond⟩

theorem tick_some (later : s.service.clock.now ≤ moment) : s.step (.tick moment) =
    some (s.withService fun v => { v with clock := { v.clock with now := moment } }, []) :=
  if_pos later

theorem history_late (hstart : ofConfig config epoch = .ok start) (moment : Nat) :
    (start.late moment).Calm moment ∧ ∃ steps,
      machine.History start (start.late moment) steps ∧ ∀ z ∈ steps, z.before.Calm moment := by
  have hcalm : start.Calm moment := by
    obtain ⟨directory, limits, rfl⟩ := ofConfig_eq hstart
    exact ⟨rfl, Nat.zero_le moment⟩
  have htick := Machine.History.start.step (m := machine) (a := Action.tick moment)
    (tick_some hcalm.early)
  have hopen : (start.withService fun v => { v with clock := { v.clock with now := moment } }).step
      (.openSession latecomer.name latecomer.principal latecomer.connection) =
        some (start.late moment, []) := by
    obtain ⟨directory, limits, rfl⟩ := ofConfig_eq hstart
    rfl
  refine ⟨⟨hcalm.usable, Nat.le_refl _⟩, _, htick.step (a := Action.openSession ..) hopen, ?_⟩
  rw [List.nil_append, List.singleton_append, List.forall_mem_cons, List.forall_mem_singleton]
  exact ⟨hcalm, hcalm.usable, Nat.le_refl _⟩

/-- **A forwarder that asks for a deadline beyond the clock stops.** -/
theorem stopped_beyond (hstart : ofConfig config epoch = .ok start)
    (beyond : clockRange < moment / 1000 + config.relay.consumeTimeout) :
    ∃ s steps, machine.History start s steps ∧ (∀ z ∈ steps, z.before.Calm moment) ∧
      ∃ x, s.session? latecomer.name = some x ∧ x.isRunning = true ∧ x.forwarder = .stopped := by
  have D := doomed_late hstart beyond
  obtain ⟨hcalm, steps, h, calm⟩ := history_late hstart moment
  obtain ⟨u, first, t, last, hfirst, hlast, hservice, hstopped⟩ := D.stopped
  have hu : u.Calm moment := by
    constructor
    · rw [hservice]
      exact hcalm.usable
    · rw [hservice]
      exact hcalm.early
  have hbegins := h.step (a := Action.run (.forward latecomer.name)) hfirst
  have hstops := hbegins.step (a := Action.run (.forward latecomer.name)) hlast
  refine ⟨t, _, hstops, ?_, hstopped⟩
  rw [List.append_assoc, List.forall_mem_append]
  exact ⟨calm, List.forall_mem_cons.mpr ⟨hcalm, List.forall_mem_singleton.mpr hu⟩⟩

/-- **All runs up to a moment keep their forwarders just if the clock can name the time of
consuming after that moment.** -/
theorem unbroken_iff (hstart : ofConfig config epoch = .ok start) (moment : Nat) :
    (∀ s steps, machine.History start s steps → (∀ z ∈ steps, z.before.Calm moment) →
      Unbroken s steps) ↔ moment / 1000 + config.relay.consumeTimeout ≤ clockRange := by
  constructor
  · intro unbroken
    by_contra beyond
    obtain ⟨s, steps, h, calm, x, here, runs, stopped⟩ :=
      stopped_beyond hstart (Nat.lt_of_not_le beyond)
    exact (unbroken s steps h calm).served _ x here runs stopped
  · exact fun within s steps h calm => unbroken_of_history hstart within h calm

/-- As configured by default, no session loses its forwarder in thirty billion years. -/
theorem unbroken_of_default : ∃ start, ofConfig {} 0 = .ok start ∧
    ∀ s steps, machine.History start s steps →
      (∀ z ∈ steps, z.before.Calm (tenTo 21)) → Unbroken s steps := by
  have hstart : ofConfig {} 0 = .ok ((ofConfig {} 0).toOption.get rfl) := rfl
  exact ⟨_, hstart, (unbroken_iff hstart (tenTo 21)).mpr (by decide)⟩

/-! ### The longest time that can be configured -/

/-- A house whose sessions consume for as long as can be configured. -/
def patientHouse : Config where
  relay := { consumeTimeout := twoTo 64 - 1 }
  principals := [⟨latecomer.principal, "t-alice"⟩]

/-- The patient house at its start. -/
def patientStart : Server := (ofConfig patientHouse 0).toOption.get rfl

/-- A session begins and hears from its forwarder; nothing else happens. -/
def silence : List Action :=
  [.openSession "a" latecomer.principal (.direct {}), .run (.forward "a"), .run (.forward "a"),
    .choose "a" .relay]

theorem replay_silence : (machine.replay patientStart silence).isSome = true := by decide +kernel

/-- **A session ends at once as its forwarder stopped.** -/
theorem broken_of_silence : ∃ (start s : Server) (steps : List Step),
    patientHouse.check = .ok () ∧ ofConfig patientHouse 0 = .ok start ∧
      machine.History start s steps ∧ steps.map (·.action) = silence ∧
      (∀ z ∈ steps, z.before.Calm 0) ∧
      steps.flatMap (·.events) = [.sessionEnded "a" (.ok ())] ∧ ¬Unbroken s steps := by
  have hstart : ofConfig patientHouse 0 = .ok patientStart := rfl
  have h := Machine.history_of_replayed replay_silence
  have hactions := Machine.actions_of_replay (Option.some_get replay_silence).symm
  have hcalm : ∀ z ∈ ((machine.replay patientStart silence).get replay_silence).2,
      z.before.service.relay.fault.isNone = true ∧ z.before.service.clock.now ≤ 0 := by
    decide +kernel
  refine ⟨_, _, _, rfl, hstart, h, hactions, fun z hz => ?_, rfl, fun unbroken => ?_⟩
  · exact ⟨Option.isNone_iff_eq_none.mp (hcalm z hz).1, (hcalm z hz).2⟩
  · exact unbroken.heard _ (List.mem_of_getElem? (i := 3) rfl) "a" (.ok ()) rfl
      (List.mem_singleton.mpr rfl)

end Server
end DeviceRelay
