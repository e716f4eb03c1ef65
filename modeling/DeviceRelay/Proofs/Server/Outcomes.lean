/-
# An outcome is final unless the pairing is being recorded

Whoever asks to own a device is told an outcome at the end of its wait. If an accept
claimed the request before that and its pairing is still being recorded, the outcome is
pending, and the recording settles the request later. Otherwise the outcome is accepted or
rejected, the request keeps that state in all that follows, and its pairing is recorded at
some time if and only if it is accepted.

Key definitions: `Server.Returns`, `Server.Records`, `Server.InFlight`, `Server.Final`.
Key theorems: `Server.recorded_iff`, `Server.final_iff_not_inFlight`,
`Server.pending_then_recorded`.
-/
import DeviceRelay.Proofs.Pairing.Histories
import DeviceRelay.Proofs.Server.Requests

namespace DeviceRelay
namespace Server

/-- Whether the next step of a call is to return an outcome. -/
def Returns (s : Server) (label : String) (o : PairingOutcome) : Prop :=
  ∃ c move, s.call? label = some c ∧ s.service.step? (.call label) c.phase = some move ∧
    move.progress = .ends (.answered (.outcome o))

/-- Whether a step records the pairing of a request: the store creates its edge. -/
def Records (id : RequestId) (x : Step) : Prop :=
  x.action = .run (.background (.write id)) ∧
    ∃ w ∈ x.before.service.pairing.writes, w.request.id = id ∧
      x.before.service.store.record w.request.requester.id w.request.target.id =
        (x.after.service.store, .recorded)

/-- Whether the pairing of a request is being recorded. -/
def InFlight (s : Server) (id : RequestId) : Prop :=
  ∃ w ∈ s.service.pairing.writes, w.request.id = id ∧ w.recording = none

/-- That an outcome is final after the steps that led to a server: it is not pending, the
request keeps its state, and its pairing is recorded, before or later, if and only if it is
accepted. -/
def Final (steps : List Step) (t : Server) (o : PairingOutcome) : Prop :=
  o.state ≠ .pending ∧ ∀ u later, machine.History t u later →
    u.service.pairing.stateOf o.requestId = o.state ∧
      ((∃ x ∈ steps ++ later, Records o.requestId x) ↔ o.state = .accepted)

variable {s t : Server}

/-! ### What was recorded -/

/-- The end of a recording uses the store for the request that was accepted. -/
theorem step_write (S : s.Sound) {id : RequestId} {events : List Event}
    (h : s.step (.run (.background (.write id))) = some (t, events)) :
    ∃ w ∈ s.service.pairing.writes, w.request.id = id ∧ ∃ r,
      s.service.store.record w.request.requester.id w.request.target.id = (t.service.store, r) ∧
      t.service.pairing.stage id = .ended r := by
  obtain ⟨service, hb, h⟩ := Option.map_eq_some_iff.mp h
  obtain ⟨rfl, -⟩ := Prod.mk.inj h
  obtain ⟨⟨pairing, store⟩, he, rfl⟩ := Option.map_eq_some_iff.mp hb
  obtain ⟨w, hw, hid, -, r, hrec, M⟩ := Coordinator.endWrite_moves S.requests he
  exact ⟨w, hw, hid, r, hrec, M.moved⟩

/-- Whether a step records a pairing shows in the stage of its request. -/
theorem records_iff (S : s.Sound) {id : RequestId} {events : List Event}
    (h : s.step (.run (.background (.write id))) = some (t, events)) :
    Records id ⟨s, .run (.background (.write id)), t, events⟩ ↔
      t.service.pairing.stage id = .ended .recorded := by
  obtain ⟨w, hw, hid, r, hrec, hstage⟩ := step_write S h
  rw [hstage]
  constructor
  · rintro ⟨-, w', hw', hid', hrec'⟩
    obtain rfl : w' = w :=
      List.inj_on_of_nodup_map S.requests.writesNodup hw' hw (hid'.trans hid.symm)
    rw [(Prod.mk.inj (hrec.symm.trans hrec')).2]
  · intro hr
    rw [Stage.ended.inj hr] at hrec
    exact ⟨rfl, w, hw, hid, hrec⟩

/-- **A request is accepted once its pairing was recorded.** -/
theorem recorded_iff {start : Server} (S : start.Sound) {steps : List Step}
    (h : machine.History start s steps) {id : RequestId}
    (hstart : start.service.pairing.stage id = .unsent) :
    s.service.pairing.stage id = .ended .recorded ↔ ∃ x ∈ steps, Records id x := by
  induction h with
  | start => simp [hstart]
  | @step u t steps a events hs hstep ih =>
    have Su := sound_of_history hs S
    obtain ⟨op, C, hop⟩ := change_of_step Su hstep
    constructor
    · intro hr
      rcases C.way Su.requests id with hk | hway
      · obtain ⟨x, hx, hrec⟩ := ih.mp (hk ▸ hr)
        exact ⟨x, List.mem_append_left _ hx, hrec⟩
      · have ha : a = .run (.background (.write id)) := by
          rw [hr] at hway
          generalize u.service.pairing.stage id = old at hway
          cases hway with
          | write => exact hop id rfl
        subst ha
        exact ⟨_, List.mem_append_right _ (List.mem_singleton.mpr rfl), (records_iff Su hstep).mpr hr⟩
    · rintro ⟨x, hx, hrec⟩
      rcases List.mem_append.mp hx with hx | hx
      · have hle := C.later Su.requests id
        rw [ih.mpr ⟨x, hx, hrec⟩] at hle
        exact hle
      · obtain rfl := List.mem_singleton.mp hx
        obtain rfl := hrec.1
        exact (records_iff Su hstep).mp hrec

/-! ### The outcome -/

theorem returns_cases (S : s.Sound) {label : String} {o : PairingOutcome}
    (h : s.Returns label o) :
    ∃ t events, s.step (.run (.call label)) = some (t, events) ∧
      ((o.state = .pending ∧ s.InFlight o.requestId) ∨
        (o.state ≠ .pending ∧ t.service.pairing.stateOf o.requestId = o.state ∧
          ¬ s.InFlight o.requestId)) := by
  obtain ⟨c, move, hc, hm, hp⟩ := h
  obtain ⟨op, M⟩ := runCall_stepped S hc hm
  obtain ⟨due, hphase⟩ := M.outcome o hp
  have hsent : s.service.pairing.stage o.requestId ≠ .unsent :=
    S.awaits c (call_some hc).1 _ (by rw [hphase]; rfl)
  have hrun : ∃ t events, s.runCall? label = some (t, events) ∧ t.service = move.service := by
    unfold runCall?
    rw [hc]
    simp only [Option.bind_eq_bind, Option.bind_some, hm, hp]
    exact ⟨_, _, rfl, rfl⟩
  obtain ⟨t, events, hstep, hservice⟩ := hrun
  refine ⟨t, events, hstep, ?_⟩
  rw [hphase] at hm
  rw [hservice, InFlight, ← S.requests.recording_iff]
  exact Service.endWait_outcome S.requests hm hp hsent

/-- **An outcome is final if and only if the pairing is not being recorded** when the wait
for it ends. -/
theorem final_iff_not_inFlight {config : Config} {epoch : Int} {start : Server}
    (hstart : ofConfig config epoch = .ok start) {steps : List Step}
    (h : machine.History start s steps) {label : String} {o : PairingOutcome}
    (hr : s.Returns label o) :
    ∃ t events, s.step (.run (.call label)) = some (t, events) ∧
      (Final (steps ++ [⟨s, .run (.call label), t, events⟩]) t o ↔ ¬ s.InFlight o.requestId) := by
  have S₀ := ofConfig_sound hstart
  have S := sound_of_history h S₀
  obtain ⟨t, events, hstep, hcases⟩ := returns_cases S hr
  refine ⟨t, events, hstep, ?_⟩
  rcases hcases with ⟨hp, hfly⟩ | ⟨hp, hstate, hfly⟩
  · exact ⟨fun hfinal => absurd hp hfinal.1, fun hn => absurd hfly hn⟩
  · refine ⟨fun _ => hfly, fun _ => ⟨hp, fun u later hlater => ?_⟩⟩
    have St := sound_of_step S hstep
    have Su := sound_of_history hlater St
    have hkeeps : u.service.pairing.stateOf o.requestId = o.state := by
      rw [← hstate]
      exact (later_of_history hlater St).stateOf_eq St.requests Su.requests (hstate ▸ hp)
    refine ⟨hkeeps, ?_⟩
    rw [← hkeeps, Su.requests.accepted_iff]
    have hx : machine.step s (.run (.call label)) = some (t, events) := hstep
    exact (recorded_iff S₀ ((h.step hx).trans hlater) (ofConfig_unsent hstart _)).symm

/-! ### Two runs -/

/-- A service whose requesters wait for one second. -/
def hasty : Config where
  pairing := { requestTtl := 60, responseWait := 1 }
  principals := [⟨Coordinator.alice, "t-alice"⟩, ⟨Coordinator.phone, "t-phone"⟩]

/-- The service at its start. -/
def hastyStart : Server := (ofConfig hasty 0).toOption.get rfl

/-- A user asks for a device, which accepts. The store takes so long. -/
def askAndAccept (delay : Nat) : List Action :=
  [.setStore delay none, .call "pair" (.pair ⟨7⟩ Coordinator.alice (.number ⟨2⟩)),
    .run (.call "pair"), .run (.call "pair"),
    .call "respond" (.respond Coordinator.phone ⟨7⟩ true), .run (.call "respond")]

/-- The pairing was recorded at once. -/
def recordedAtOnce : Server :=
  ((machine.run hastyStart (askAndAccept 0 ++ [.run (.background (.write ⟨7⟩))])).get rfl).1

/-- The requester waited for a second. -/
def waitedInVain : Server :=
  ((machine.run hastyStart (askAndAccept 5000 ++ [.tick 1000])).get rfl).1

/-- The requester was told its outcome. -/
def toldPending : Server := ((machine.step waitedInVain (.run (.call "pair"))).get rfl).1

/-- The store answered after that. -/
def recordedLate : Server :=
  ((machine.run toldPending [.tick 5000, .run (.background (.write ⟨7⟩))]).get rfl).1

set_option maxRecDepth 4000 in
/-- An outcome that is final. -/
theorem final_of_recorded : ∃ start s steps t events, ofConfig hasty 0 = .ok start ∧
    machine.History start s steps ∧ s.Returns "pair" ⟨⟨7⟩, ⟨2⟩, .accepted⟩ ∧
      s.step (.run (.call "pair")) = some (t, events) ∧
      Final (steps ++ [⟨s, .run (.call "pair"), t, events⟩]) t ⟨⟨7⟩, ⟨2⟩, .accepted⟩ := by
  have hstart : ofConfig hasty 0 = .ok hastyStart := rfl
  obtain ⟨steps, h⟩ : ∃ steps, machine.History hastyStart recordedAtOnce steps :=
    Machine.history_of_get _
  have hr : recordedAtOnce.Returns "pair" ⟨⟨7⟩, ⟨2⟩, .accepted⟩ := ⟨_, _, rfl, rfl, rfl⟩
  obtain ⟨t, events, hstep, hiff⟩ := final_iff_not_inFlight hstart h hr
  have hfly : ¬ recordedAtOnce.InFlight ⟨7⟩ := by
    rw [InFlight, ← (sound_of_history h (ofConfig_sound hstart)).requests.recording_iff]
    have hstage : recordedAtOnce.service.pairing.stage ⟨7⟩ = .ended .recorded := rfl
    rw [hstage]
    simp
  exact ⟨_, _, steps, t, events, hstart, h, hr, hstep, hiff.mpr hfly⟩

set_option maxRecDepth 4000 in
/-- **The requester is told that its request is pending, and then the pairing is recorded.** -/
theorem pending_then_recorded : ∃ start s steps t events u later, ofConfig hasty 0 = .ok start ∧
    machine.History start s steps ∧ s.Returns "pair" ⟨⟨7⟩, ⟨2⟩, .pending⟩ ∧
      s.step (.run (.call "pair")) = some (t, events) ∧
      ¬ Final (steps ++ [⟨s, .run (.call "pair"), t, events⟩]) t ⟨⟨7⟩, ⟨2⟩, .pending⟩ ∧
      machine.History t u later ∧ u.service.pairing.stateOf ⟨7⟩ = .accepted ∧
      ∃ x ∈ later, Records ⟨7⟩ x := by
  have hstart : ofConfig hasty 0 = .ok hastyStart := rfl
  obtain ⟨steps, h⟩ : ∃ steps, machine.History hastyStart waitedInVain steps :=
    Machine.history_of_get _
  obtain ⟨later, h'⟩ : ∃ later, machine.History toldPending recordedLate later :=
    Machine.history_of_get _
  have hr : waitedInVain.Returns "pair" ⟨⟨7⟩, ⟨2⟩, .pending⟩ := ⟨_, _, rfl, rfl, rfl⟩
  have hstep : machine.step waitedInVain (.run (.call "pair")) = some (toldPending, _) := rfl
  have S := ofConfig_sound hstart
  have told := h.step hstep
  have hrecorded : recordedLate.service.pairing.stage ⟨7⟩ = .ended .recorded := rfl
  have hnot : toldPending.service.pairing.stage ⟨7⟩ = .recording := rfl
  obtain ⟨x, hx, hrec⟩ :=
    (recorded_iff S (told.trans h') (ofConfig_unsent hstart _)).mp hrecorded
  rcases List.mem_append.mp hx with hx | hx
  · have hearly := (recorded_iff S told (ofConfig_unsent hstart _)).mpr ⟨x, hx, hrec⟩
    rw [hnot] at hearly
    cases hearly
  · exact ⟨_, _, steps, _, _, _, later, hstart, h, hr, hstep, fun hf => hf.1 rfl, h', rfl, x, hx, hrec⟩

end Server
end DeviceRelay
