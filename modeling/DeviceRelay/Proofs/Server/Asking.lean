/-
# Whoever asks for a device is refused without a trace, or leaves no live request behind

A call that asks for a device makes up to three steps, and others may do anything between them.
In the first one everything is checked that can be objected to it. In the second one the request
is sent, unless the place was shut down meanwhile. The third one is made when the request is
settled or the wait for it is over. If the call returns before it sent its request, then it changed
nothing, and the first objection was its result. If it returns after that, then its request is not
live any longer and has no timer.

Key definitions: `Server.Runs`, `Server.Course`, `Server.Returned`, `Server.Asked`.
Key theorems: `Server.course_of_history`, `Server.asked_of_history`.
-/
import DeviceRelay.Proofs.Server.Ownership
import DeviceRelay.Proofs.Server.Pairings
import DeviceRelay.Proofs.Service.Asking

namespace DeviceRelay
namespace Server

/-- A call makes a step of its own from a phase. -/
structure Runs (z : Step) (label : String) (phase : Phase) (move : Move) : Prop where
  asked : z.action = .run (.call label)
  here : z.before.phaseOf? (.call label) = some phase
  moves : z.before.service.step? (.call label) phase = some move
  service : z.after.service = move.service
  goesOn : ∀ next, move.progress = .goesOn next → z.after.phaseOf? (.call label) = some next
  /-- A call that ends returns. -/
  returns : ∀ ending, move.progress = .ends ending → z.after.phaseOf? (.call label) = none ∧
    ∃ c, z.before.call? label = some c ∧ z.events = [endEvent label ending c.origin]

/-- What a call that asks for a device did before the step `n` of a run, in which it is in a
phase. -/
inductive Course (steps : List Step) (label : String) : Phase → Nat → Prop where
  /-- It was asked for, and made no step yet. -/
  | begins (id : RequestId) (requester : Principal) (device : DeviceRef) (i n : Nat) (w : Step)
    (at_i : steps[i]? = some w) (asks : Asks w.before w.action label (.pair id requester device))
    (since : Entered steps (.call label) (.begins (.pair id requester device)) i n) :
    Course steps label (.begins (.pair id requester device)) n
  /-- It made one step, in which nothing was objected and nothing happened. -/
  | sends (id : RequestId) (requester target : Principal) (device : DeviceRef) (i n : Nat)
    (y : Step) (at_i : steps[i]? = some y)
    (earlier : Course steps label (.begins (.pair id requester device)) i) (move : Move)
    (runs : Runs y label (.begins (.pair id requester device)) move)
    (decided : Error.verdict (y.before.service.pairChecks requester device) = .ok ())
    (found : device.find? y.before.service.directory = some target)
    (nothing : y.after.service = y.before.service)
    (since : Entered steps (.call label) (.sends id requester target) i n) :
    Course steps label (.sends id requester target) n
  /-- It made two steps, and in the second one it made its request. -/
  | awaits (id : RequestId) (requester target : Principal) (due i n : Nat) (y : Step)
    (at_i : steps[i]? = some y) (earlier : Course steps label (.sends id requester target) i)
    (move : Move) (runs : Runs y label (.sends id requester target) move)
    (isOpen : y.before.service.pairing.isShutDown = false)
    (unsent : y.before.service.pairing.stage id = .unsent)
    (made : Service.Made y.before.service y.after.service
      ⟨id, requester, target, y.before.service.clock.wall⟩)
    (since : Entered steps (.call label) (.awaits id target.id due) i n) :
    Course steps label (.awaits id target.id due) n

/-- How a call returns in the step `n` of a run that asked for a device. -/
inductive Returned (steps : List Step) (label : String) (n : Nat) (z : Step) : Ending → Prop where
  /-- The first objection is its result, and it left no trace. -/
  | refused (id : RequestId) (requester : Principal) (device : DeviceRef) (e : Error)
    (course : Course steps label (.begins (.pair id requester device)) n)
    (decided : Error.verdict (z.before.service.pairChecks requester device) = .error e)
    (nothing : z.after.service = z.before.service)
    (unsent : z.after.service.pairing.stage id = .unsent) : Returned steps label n z (.failed e)
  /-- Nothing was objected, but the place is shut down, and the call left no trace. -/
  | late (id : RequestId) (requester target : Principal)
    (course : Course steps label (.sends id requester target) n)
    (shut : z.before.service.pairing.isShutDown = true)
    (nothing : z.after.service = z.before.service)
    (unsent : z.after.service.pairing.stage id = .unsent) :
    Returned steps label n z (.failed .cancelled)
  /-- It made one request, which is over. -/
  | waited (id : RequestId) (device : PrincipalId) (due : Nat) (ending : Ending)
    (course : Course steps label (.awaits id device due) n)
    (after : Service.Over z.before.service z.after.service id device ending) :
    Returned steps label n z ending

/-- What the calls of a run do that ask for a device, and how they return. -/
structure Asked (steps : List Step) : Prop where
  turns : ∀ n z label phase move, steps[n]? = some z → Runs z label phase move →
    phase.asks = true →
      Course steps label phase n ∧ Service.AskTurn z.before.service move phase
  returns : ∀ n z label phase move ending, steps[n]? = some z → Runs z label phase move →
    phase.asks = true → move.progress = .ends ending → Returned steps label n z ending

variable {start s t : Server} {a : Action} {events : List Event} {steps : List Step}
  {label : String} {phase : Phase} {move : Move} {i n : Nat} {y z : Step}

/-! ### Steps -/

theorem runs_of_step (h : s.step (.run (.call label)) = some (t, events)) :
    ∃ phase move, Runs ⟨s, .run (.call label), t, events⟩ label phase move := by
  obtain ⟨c, move, here, moves, service, -, -, hprogress⟩ := runCall_some h
  have hphase : s.phaseOf? (.call label) = some c.phase := by
    rw [phaseOf?_call, here]
    rfl
  refine ⟨c.phase, move, rfl, hphase, moves, service, fun next hnext => ?_, fun ending hends => ?_⟩
  · rcases hprogress with ⟨next', hgoes, -, calls⟩ | ⟨_, hends, -⟩
    · obtain rfl := Progress.goesOn.inj (hnext.symm.trans hgoes)
      rw [phaseOf?_call, call?_map calls, here, Option.map_some, if_pos (call_some here).2]
      rfl
    · cases hnext.symm.trans hends
  · rcases hprogress with ⟨_, hgoes, -⟩ | ⟨ending', hends', shown, calls⟩
    · cases hends.symm.trans hgoes
    · obtain rfl := Progress.ends.inj (hends.symm.trans hends')
      refine ⟨?_, c, here, shown⟩
      rw [phaseOf?_call, call?_filter calls, if_pos rfl]
      rfl

/-- No request was sent under the identifier that a call is to send. -/
theorem unsent_of_wants (S : s.Sound) (here : s.phaseOf? (.call label) = some phase)
    {id : RequestId} (wants : phase.wants id) : s.service.pairing.stage id = .unsent := by
  obtain ⟨c, hc, rfl⟩ := Option.map_eq_some_iff.mp ((phaseOf?_call s label).symm.trans here)
  exact (S.wants c (call_some hc).1 id wants).2

/-- **What a step of a call is that asks for a device.** -/
theorem askTurn_of_runs (S : z.before.Sound) (course : Course steps label phase n)
    (runs : Runs z label phase move) : Service.AskTurn z.before.service move phase := by
  have moves := runs.moves
  have unsent {id : RequestId} (wants : phase.wants id) :=
    unsent_of_wants S runs.here wants
  cases course with
  | begins id requester device =>
    obtain rfl := Option.some.inj moves
    rcases z.before.service.beginPair_decided id requester device with
      ⟨e, decided, fails⟩ | ⟨target, decided, found, goes⟩
    · exact .refused id requester device e decided (unsent rfl) fails
    · exact .passes id requester target device decided found goes
  | sends id requester target device _ _ y _ _ _ _ decided found =>
    obtain ⟨user, isDevice⟩ := Service.roles_of_decided decided found
    obtain rfl := Option.some.inj moves
    by_cases shut : z.before.service.pairing.isShutDown = true
    · exact .late id requester target shut (unsent rfl)
        (Service.late_of_sendRequest user isDevice shut)
    · rw [Bool.not_eq_true] at shut
      obtain ⟨made, due, goes⟩ := Service.made_of_sendRequest (unsent rfl) user isDevice shut
      exact .made id requester target shut (unsent rfl) made due goes
  | awaits id requester target due =>
    obtain ⟨ending, ends, after⟩ := Service.over_of_endWait? S.requests moves
    exact .waited id target.id due ending ends after

/-! ### Runs -/

theorem after_of_entered (h : machine.History start s steps) {task : Task}
    (entered : Entered steps task phase i n) (at_n : steps[n]? = some z)
    (here : z.before.phaseOf? task = some phase) (at_i : steps[i]? = some y) :
    y.after.phaseOf? task = some phase := by
  have hnext {x : Step} (hx : steps[i + 1]? = some x) : x.before = y.after :=
    h.between (P := fun u => u = y.after) (Nat.lt_succ_self i) at_i hx rfl fun _ _ _ _ => by omega
  rcases Nat.lt_or_eq_of_le (show i + 1 ≤ n from entered.earlier) with hlt | rfl
  · have hlength : i + 1 < steps.length :=
      Nat.lt_trans hlt (List.getElem?_eq_some_iff.mp at_n).1
    have hx := List.getElem?_eq_getElem hlength
    rw [← hnext hx]
    exact (entered.stays (i + 1) _ (Nat.lt_succ_self i) hlt hx).1
  · rw [← hnext at_n]
    exact here

/-- A call that went on to a phase did so in a step of its own. -/
theorem runs_of_entered (h : machine.History start s steps)
    (entered : Entered steps (.call label) phase i n) (at_n : steps[n]? = some z)
    (here : z.before.phaseOf? (.call label) = some phase) (at_i : steps[i]? = some y)
    (asked : y.action = .run (.call label)) {previous : Phase}
    (before : y.before.phaseOf? (.call label) = some previous) :
    ∃ move, Runs y label previous move ∧ move.progress = .goesOn phase := by
  have hafter := after_of_entered h entered at_n here at_i
  obtain ⟨-, hstep⟩ := h.take at_i
  obtain ⟨before', action, after, events⟩ := y
  obtain rfl := asked
  obtain ⟨other, move, runs⟩ := runs_of_step hstep
  obtain rfl := Option.some.inj (before.symm.trans runs.here)
  refine ⟨move, runs, ?_⟩
  cases hprogress : move.progress with
  | goesOn next =>
    obtain rfl := Option.some.inj (hafter.symm.trans (runs.goesOn next hprogress))
    rfl
  | ends ending => cases hafter.symm.trans (runs.returns ending hprogress).1

section
variable (h : machine.History start s steps) (S : start.Sound) (hcalls : start.calls = [])
  (hsessions : start.sessions = [])
include h S hcalls hsessions

omit S in
theorem course_of_begins {id : RequestId} {requester : Principal} {device : DeviceRef}
    (at_n : steps[n]? = some z)
    (here : z.before.phaseOf? (.call label) = some (.begins (.pair id requester device))) :
    Course steps label (.begins (.pair id requester device)) n := by
  obtain ⟨i, entered⟩ := entered_before h hcalls hsessions at_n here
  obtain ⟨w, at_i, enters⟩ := entered.enters
  exact .begins id requester device i n w at_i enters.of_begins entered

theorem course_of_sends {id : RequestId} {requester target : Principal}
    (at_n : steps[n]? = some z)
    (here : z.before.phaseOf? (.call label) = some (.sends id requester target)) :
    Course steps label (.sends id requester target) n := by
  obtain ⟨i, entered⟩ := entered_before h hcalls hsessions at_n here
  obtain ⟨y, at_i, enters⟩ := entered.enters
  cases enters with
  | goesOn _ asked previous _ before follows =>
    obtain ⟨move, runs, goes⟩ := runs_of_entered h entered at_n here at_i asked before
    cases follows with
    | waits _ _ waits => exact waits.elim
    | asks _ _ _ device =>
      have course := course_of_begins h hcalls hsessions at_i before
      cases askTurn_of_runs (sound_before h S at_i) course runs with
      | refused _ _ _ _ _ _ fails =>
        rw [fails] at goes
        cases goes
      | passes _ _ _ _ decided found passes =>
        rw [passes] at goes
        obtain ⟨-, -, rfl⟩ := Phase.sends.inj (Progress.goesOn.inj goes)
        have nothing : y.after.service = y.before.service := by
          rw [runs.service, passes]
        exact .sends id requester _ device i n y at_i course move runs decided found nothing entered

theorem course_of_awaits {id : RequestId} {device : PrincipalId} {due : Nat}
    (at_n : steps[n]? = some z)
    (here : z.before.phaseOf? (.call label) = some (.awaits id device due)) :
    Course steps label (.awaits id device due) n := by
  obtain ⟨i, entered⟩ := entered_before h hcalls hsessions at_n here
  obtain ⟨y, at_i, enters⟩ := entered.enters
  cases enters with
  | goesOn _ asked previous _ before follows =>
    obtain ⟨move, runs, goes⟩ := runs_of_entered h entered at_n here at_i asked before
    have Sy := sound_before h S at_i
    have hwants : ∀ id, previous.wants id → y.before.service.pairing.stage id = .unsent :=
      fun id => unsent_of_wants Sy runs.here
    obtain ⟨op, stepped⟩ := Service.stepped Sy.requests hwants runs.moves
    obtain ⟨p, q, hop⟩ := stepped.awaits _ goes id rfl
    obtain ⟨rfl, -⟩ := stepped.sends id p q hop
    have course := course_of_sends h S hcalls hsessions at_i before
    cases askTurn_of_runs Sy course runs with
    | late _ _ _ _ _ fails =>
      rw [fails] at goes
      cases goes
    | made _ _ _ isOpen unsent made due' goes' =>
      obtain ⟨-, rfl, rfl⟩ := Phase.awaits.inj (Progress.goesOn.inj (goes.symm.trans goes'))
      rw [← runs.service] at made
      exact .awaits id p q due i n y at_i course move runs isOpen unsent made entered

/-- **What a call did before that asks for a device.** -/
theorem course_of_history (at_n : steps[n]? = some z)
    (here : z.before.phaseOf? (.call label) = some phase) (asks : phase.asks = true) :
    Course steps label phase n := by
  cases phase with
  | begins call =>
    cases call with
    | pair => exact course_of_begins h hcalls hsessions at_n here
    | _ => cases asks
  | sends => exact course_of_sends h S hcalls hsessions at_n here
  | awaits => exact course_of_awaits h S hcalls hsessions at_n here
  | _ => cases asks

end

theorem returned_of_askTurn (course : Course steps label phase n) (runs : Runs z label phase move)
    (turn : Service.AskTurn z.before.service move phase) {ending : Ending}
    (ends : move.progress = .ends ending) : Returned steps label n z ending := by
  have service := runs.service
  cases turn with
  | refused id requester device e decided unsent fails =>
    rw [fails] at ends service
    obtain rfl := Progress.ends.inj ends
    have nothing : z.after.service = z.before.service := service
    exact .refused id requester device e course decided nothing (nothing ▸ unsent)
  | passes _ _ _ _ _ _ goes =>
    rw [goes] at ends
    cases ends
  | late id requester target shut unsent fails =>
    rw [fails] at ends service
    obtain rfl := Progress.ends.inj ends
    have nothing : z.after.service = z.before.service := service
    exact .late id requester target course shut nothing (nothing ▸ unsent)
  | made _ _ _ _ _ _ _ goes => cases ends.symm.trans goes
  | waited id device due other ends' after =>
    obtain rfl := Progress.ends.inj (ends.symm.trans ends')
    rw [← service] at after
    exact .waited id device due ending course after

/-- **Whoever asks for a device is refused without a trace, by the first objection, or makes one
request, which is not live any longer and has no timer when its requester returns.** -/
theorem asked_of_history {config : Config} {epoch : Int}
    (hstart : ofConfig config epoch = .ok start) (h : machine.History start s steps) :
    Asked steps := by
  have S := ofConfig_sound hstart
  obtain ⟨-, hcalls, hsessions⟩ := ofConfig_ok hstart
  have hturns : ∀ n z label phase move, steps[n]? = some z → Runs z label phase move →
      phase.asks = true →
        Course steps label phase n ∧ Service.AskTurn z.before.service move phase := by
    intro n z label phase move at_n runs asks
    have course := course_of_history h S hcalls hsessions at_n runs.here asks
    exact ⟨course, askTurn_of_runs (sound_before h S at_n) course runs⟩
  refine ⟨hturns, fun n z label phase move ending at_n runs asks ends => ?_⟩
  obtain ⟨course, turn⟩ := hturns n z label phase move at_n runs asks
  exact returned_of_askTurn course runs turn ends

/-! ### Three who ask -/

/-- A device asks for itself. A user asks for it twice, and the place is shut down when the first
request waits and the second one is about to be sent. -/
def asksThrice : List Action :=
  [.call "itself" (.pair ⟨1⟩ Coordinator.phone (.number ⟨2⟩)), .run (.call "itself"),
    .call "first" (.pair ⟨2⟩ Coordinator.alice (.number ⟨2⟩)), .run (.call "first"),
    .run (.call "first"), .call "late" (.pair ⟨3⟩ Coordinator.alice (.number ⟨2⟩)),
    .run (.call "late"), .shutDown, .run (.call "first"), .run (.call "late")]

theorem replay_asksThrice : (machine.replay hastyStart asksThrice).isSome = true := by
  decide +kernel

/-- All three calls returned. Only the one that waited made a request, which is rejected. -/
theorem asked_of_three : ∃ (start s : Server) (steps : List Step),
    ofConfig hasty 0 = .ok start ∧ machine.History start s steps ∧
      steps.map (·.action) = asksThrice ∧ s.calls.length = 0 ∧
      s.service.pairing.sentIds = [⟨2⟩] ∧ s.service.pairing.liveIds = [] ∧
      s.service.pairing.timerIds = [] ∧ s.service.pairing.stateOf ⟨2⟩ = .rejected ∧
      s.service.metrics.pairRequests = 1 ∧ Asked steps := by
  have hstart : ofConfig hasty 0 = .ok hastyStart := rfl
  have h := Machine.history_of_replayed replay_asksThrice
  have hactions := Machine.actions_of_replay (Option.some_get replay_asksThrice).symm
  exact ⟨_, _, _, hstart, h, hactions, by decide +kernel, by decide +kernel, by decide +kernel,
    by decide +kernel, by decide +kernel, by decide +kernel, asked_of_history hstart h⟩

end Server
end DeviceRelay
