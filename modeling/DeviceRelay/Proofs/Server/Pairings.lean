/-
# Which accepted requests are counted

A request is counted when it is sent. That it was accepted is counted by the call of its
requester, at the end of its wait: the request itself is settled by whoever answers it. So an
accepted request is not counted as long as its requester waits, and it is never counted if the
requester misses it: its call was dropped while it waited, or its wait ended while the pairing
was still being recorded. The count of pairings is right in a state in which nobody asks for a
device and nothing is being recorded just if no accepted request was missed before.

Key definitions: `Server.accepts`, `Server.awaited`, `Server.released?`, `Server.missed`,
`Server.Quiet`, `Server.Recounted`.
Key theorems: `Server.release_cases`, `Server.waiting_of_history`, `Server.recounted_of_history`,
`Server.uncounted_of_dropped`.
-/
import DeviceRelay.Proofs.Server.Outcomes
import DeviceRelay.Proofs.Server.Shifts

namespace DeviceRelay

/-- Whether a call in a phase asks for a device: it is to send its request, or waits for it. -/
def Phase.asks : Phase → Bool
  | .begins (.pair ..) | .sends .. | .awaits .. => true
  | _ => false

/-- Whether an action is the step of a party. -/
def Action.isTurn : Action → Bool
  | .run _ => true
  | _ => false

/-- Whether the pairing of a request is being recorded. -/
def Coordinator.isRecording {γ : Type} (c : Coordinator γ) (id : RequestId) : Bool :=
  c.writes.any fun w => w.request.id = id && w.recording.isNone

namespace Server

/-- Whether a request is accepted. -/
def accepts (s : Server) (id : RequestId) : Bool := s.service.pairing.stateOf id = .accepted

/-- The requests for which their requesters wait. -/
def awaited (s : Server) : List RequestId := s.phases.filterMap Phase.awaited?

/-- The request of a requester whose wait ends in a step. -/
def released? (z : Step) : Option RequestId := (leaves? z).bind Phase.awaited?

/-- The request that a requester finds accepted at the end of its wait. -/
def learned? (z : Step) : Option RequestId :=
  (released? z).filter fun id => z.action.isTurn && z.before.accepts id

/-- The request of which a requester does not learn how it is settled: its call is dropped while
it waits, or its wait ends while the pairing is being recorded. -/
def missed? (z : Step) : Option RequestId :=
  (released? z).filter fun id => !z.action.isTurn || z.before.service.pairing.isRecording id

/-- The requests of which their requesters did not learn how they are settled. -/
def missed (steps : List Step) : List RequestId := steps.filterMap missed?

/-- Nobody asks for a device, and nothing is being recorded. -/
structure Quiet (s : Server) : Prop where
  nobody : ∀ c ∈ s.calls, c.phase.asks = false
  nothing : ∀ w ∈ s.service.pairing.writes, w.recording ≠ none

/-- What the counts of requests and of pairings are in a run. -/
structure Recounted (s : Server) (steps : List Step) : Prop where
  /-- Every request that was sent is counted. -/
  requests : s.service.metrics.pairRequests = s.service.pairing.sentIds.length
  /-- Every accepted request is counted, unless its requester still waits or missed it. -/
  pairings : s.service.pairing.sentIds.countP s.accepts =
    s.service.metrics.pairings + s.awaited.countP s.accepts + (missed steps).countP s.accepts
  /-- So the count is right just if none was missed, once nobody asks and nothing is recorded. -/
  right : s.Quiet → (s.service.metrics.pairings = s.service.pairing.sentIds.countP s.accepts ↔
    ∀ id ∈ missed steps, s.accepts id = false)

variable {start s t : Server} {a : Action} {events : List Event} {steps : List Step}

theorem isRecording_iff (S : s.Sound) (id : RequestId) :
    s.service.pairing.isRecording id = true ↔ s.service.pairing.stage id = .recording := by
  rw [S.requests.recording_iff, Coordinator.isRecording, List.any_eq_true]
  simp only [Bool.and_eq_true, decide_eq_true_eq, Option.isNone_iff_eq_none]

theorem accepts_iff (S : s.Sound) (id : RequestId) :
    s.accepts id = true ↔ s.service.pairing.stage id = .ended .recorded := by
  rw [accepts, decide_eq_true_eq, S.requests.accepted_iff]

theorem learned?_of_still {z : Step} (h : released? z = none) : learned? z = none := by
  rw [learned?, h]
  rfl

theorem learned?_of_released {z : Step} {id : RequestId} (h : released? z = some id) :
    learned? z = if z.action.isTurn && z.before.accepts id then some id else none := by
  rw [learned?, h]
  exact Option.filter_some ..

theorem missed?_of_still {z : Step} (h : released? z = none) : missed? z = none := by
  rw [missed?, h]
  rfl

theorem missed?_of_released {z : Step} {id : RequestId} (h : released? z = some id) :
    missed? z =
      if !z.action.isTurn || z.before.service.pairing.isRecording id then some id else none := by
  rw [missed?, h]
  exact Option.filter_some ..

theorem isTurn_of_dropped (dropped : ∀ task, a ≠ .run task) : a.isTurn = false := by
  cases a with
  | run task => exact absurd rfl (dropped task)
  | _ => rfl

/-! ### How a wait ends -/

/-- How the wait of a requester ends in a step. -/
inductive Release (z : Step) (id : RequestId) : Prop where
  /-- The requester finds its request accepted. -/
  | learned (learned : learned? z = some id) (missed : missed? z = none)
    (accepted : z.after.service.pairing.stateOf id = .accepted)
  | missed (learned : learned? z = none) (missed : missed? z = some id)
  /-- The requester finds its request rejected, or rejects it. -/
  | refused (learned : learned? z = none) (missed : missed? z = none)
    (rejected : z.after.service.pairing.stateOf id = .rejected)

theorem sent_of_awaits (S : s.Sound) {label : String} {id : RequestId} {device : PrincipalId}
    {due : Nat} (hphase : s.phaseOf? (.call label) = some (.awaits id device due)) :
    s.service.pairing.stage id ≠ .unsent := by
  rw [phaseOf?_call] at hphase
  obtain ⟨c, hc, hcphase⟩ := Option.map_eq_some_iff.mp hphase
  exact S.awaits c (call_some hc).1 id (by rw [hcphase]; rfl)

/-- A session that publishes is in a phase of a call that publishes. -/
theorem publishes_of_phaseOf? (S : s.Sound) {name : String} {phase : Phase}
    (here : s.phaseOf? (.session name) = some phase) : phase.publishes := by
  obtain ⟨x, hx, hphase⟩ := Option.bind_eq_some_iff.mp here
  split at hphase
  · next messageId previous hpublishes =>
    obtain rfl := Option.some.inj hphase
    exact S.sessions x (session_some hx) messageId previous hpublishes
  · cases hphase

/-- A wait that ends in a step of the requester, while nothing is being recorded and the request
is not accepted, leaves the request rejected. -/
theorem rejected_of_endWait? (S : s.Sound) {id : RequestId} {device : PrincipalId} {due : Nat}
    {m : Move} (sent : s.service.pairing.stage id ≠ .unsent)
    (h : s.service.endWait? id device due = some m)
    (idle : s.service.pairing.stage id ≠ .recording)
    (refused : s.service.pairing.stage id ≠ .ended .recorded) (M : m.service.pairing.Sound) :
    m.service.pairing.stateOf id = .rejected := by
  rcases Service.settled_of_endWait? S.requests sent h with ⟨hrecording, -⟩ | ⟨hsettled, hkept⟩ |
    ⟨-, -, hrejected⟩
  · exact absurd hrecording idle
  · rw [hkept]
    cases hstate : s.service.pairing.stateOf id with
    | pending => exact absurd hstate hsettled
    | accepted => exact absurd ((S.requests.accepted_iff id).mp hstate) refused
    | rejected => rfl
  · rw [M.stateOf_eq, hrejected]
    rfl

/-- **At the end of its wait a requester learns how its request is settled, or misses it.** -/
theorem release_cases (S : s.Sound) (named : s.Named) (h : s.step a = some (t, events))
    {id : RequestId} (released : released? ⟨s, a, t, events⟩ = some id) :
    Release ⟨s, a, t, events⟩ id := by
  have hlearned := learned?_of_released released
  have hmissed := missed?_of_released released
  dsimp only at hlearned hmissed
  obtain ⟨phase, hleft, hawaited⟩ := Option.bind_eq_some_iff.mp released
  cases shift_of_step named h with
  | rests still | begins _ still => cases still.symm.trans hleft
  | refills common own asked =>
    cases (leaves?_of_apart (by rw [asked]; rfl)).symm.trans hleft
  | drops dropped =>
    rw [isTurn_of_dropped dropped] at hlearned hmissed
    exact .missed hlearned hmissed
  | moves task asked previous here party move moves service =>
    have hturn : a.isTurn = true := congrArg Action.isTurn asked
    rw [hturn, Bool.true_and] at hlearned
    rw [hturn, Bool.not_true, Bool.false_or] at hmissed
    obtain rfl : previous = phase :=
      Option.some.inj (here.symm.trans ((leaves?_of_run asked).symm.trans hleft))
    cases previous with
    | awaits other device due =>
      obtain rfl : other = id := Option.some.inj hawaited
      obtain ⟨label, rfl⟩ : ∃ label, task = .call label := by
        cases task with
        | call label => exact ⟨label, rfl⟩
        | background | forward => cases here
        | session name => exact (publishes_of_phaseOf? S here).elim
      have hsent := sent_of_awaits S here
      have hpairing : t.service.pairing = move.service.pairing :=
        congrArg Service.pairing service
      by_cases hrecording : s.service.pairing.stage other = .recording
      · have haccepts : s.accepts other = false := by
          rw [Bool.eq_false_iff, ne_eq, accepts_iff S, hrecording]
          simp
        rw [haccepts] at hlearned
        rw [(isRecording_iff S other).mpr hrecording] at hmissed
        exact .missed hlearned hmissed
      · rw [Bool.eq_false_iff.mpr ((isRecording_iff S other).not.mpr hrecording)] at hmissed
        by_cases haccepted : s.service.pairing.stage other = .ended .recorded
        · rw [(accepts_iff S other).mpr haccepted] at hlearned
          have hlater := later_of_history (.step .start h) S other
          rw [haccepted] at hlater
          exact .learned hlearned hmissed (((sound_of_step S h).requests.accepted_iff other).mpr hlater)
        · rw [Bool.eq_false_iff.mpr ((accepts_iff S other).not.mpr haccepted)] at hlearned
          refine .refused hlearned hmissed ?_
          have St := (sound_of_step S h).requests
          rw [hpairing] at St
          have hrejected := rejected_of_endWait? S hsent moves hrecording haccepted St
          exact (congrArg (·.stateOf other) hpairing).trans hrejected
    | _ => cases hawaited

/-! ### Steps -/

/-- No request is sent but in a step of a call. -/
theorem sentIds_of_apart (S : s.Sound) (h : s.step a = some (t, events))
    (apart : ∀ label, a ≠ .run (.call label)) :
    t.service.pairing.sentIds = s.service.pairing.sentIds := by
  rcases step_cases S h with ⟨label, asked, -⟩ | ⟨_, _, _, hbegins⟩ | A
  · exact absurd asked (apart label)
  · obtain ⟨_, -, -, -, rfl⟩ := beginCall_some hbegins
    rfl
  · obtain ⟨op, C, hop, -⟩ := A.change
    exact C.sentIds S.requests hop

/-- What a step does to the requests that were sent, to those for which one waits, and to their
counts. -/
structure Booked (z : Step) (sent : Option RequestId) : Prop where
  sentIds : z.after.service.pairing.sentIds = z.before.service.pairing.sentIds ++ sent.toList
  awaited : ((released? z).toList ++ z.after.awaited).Perm (sent.toList ++ z.before.awaited)
  requests : z.after.service.metrics.pairRequests =
    z.before.service.metrics.pairRequests + sent.toList.length
  pairings : z.after.service.metrics.pairings =
    z.before.service.metrics.pairings + (learned? z).toList.length

theorem Booked.of_ledger {z : Step} {limits : RateLimits}
    (sentIds : z.after.service.pairing.sentIds = z.before.service.pairing.sentIds)
    (ledger : z.after.service.ledger = { z.before.service.ledger with limits })
    (silent : learned? z = none)
    (awaited : ((released? z).toList ++ z.after.awaited).Perm z.before.awaited) :
    Booked z none where
  sentIds := sentIds.trans (List.append_nil _).symm
  awaited := awaited
  requests := congrArg Service.Ledger.pairRequests ledger
  pairings := by
    rw [silent]
    exact congrArg Service.Ledger.pairings ledger

theorem awaited_perm {l : List Phase} (h : s.phases.Perm l) :
    s.awaited.Perm (l.filterMap Phase.awaited?) := h.filterMap _

theorem booked_of_moves (S : s.Sound) {task : Task} {phase : Phase} {party : Party} {move : Move}
    {others : List Phase} (asked : a = .run task) (here : s.phaseOf? task = some phase)
    (moves : s.service.step? party phase = some move) (service : t.service = move.service)
    (before : s.phases.Perm (phase :: others))
    (after : t.phases.Perm (move.progress.next?.toList ++ others)) :
    ∃ sent, Booked ⟨s, a, t, events⟩ sent := by
  have hwants : ∀ id, phase.wants id → s.service.pairing.stage id = .unsent := by
    intro id hw
    cases task with
    | call label =>
      obtain ⟨c, hc, rfl⟩ := Option.map_eq_some_iff.mp here
      exact (S.wants c (call_some hc).1 id hw).2
    | background | forward => cases here
    | session name =>
      have hpublishes := publishes_of_phaseOf? S here
      cases phase with
      | begins call => cases call <;> first | exact hw.elim | exact hpublishes.elim
      | sends => exact hpublishes.elim
      | _ => exact hw.elim
  have hreleased : released? ⟨s, a, t, events⟩ = phase.awaited? := by
    unfold released?
    rw [leaves?_of_run asked]
    exact congrArg (·.bind Phase.awaited?) here
  have hturn : a.isTurn = true := congrArg Action.isTurn asked
  have hbefore := awaited_perm before
  have hafter := awaited_perm after
  rw [filterMap_cons_toList] at hbefore
  rw [List.filterMap_append] at hafter
  have hnext : move.progress.next?.toList.filterMap Phase.awaited? =
      (move.progress.next?.bind Phase.awaited?).toList := by
    cases move.progress.next? with
    | none => rfl
    | some next => exact filterMap_concat Phase.awaited? [] next
  rw [hnext] at hafter
  cases Service.booked_of_step? S.requests hwants moves with
  | rests _ idle none sent requests pairings =>
    rw [idle] at hbefore hreleased
    rw [none] at hafter
    refine ⟨.none, ?_, ?_, ?_, ?_⟩
    · rw [service, sent]
      exact (List.append_nil _).symm
    · rw [hreleased]
      exact hafter.trans hbefore.symm
    · rw [service, requests]
      rfl
    · rw [learned?_of_still hreleased, service, pairings]
      rfl
  | sends id requester target waits sent requests pairings =>
    rw [waits] at hafter
    refine ⟨some id, ?_, ?_, ?_, ?_⟩
    · rw [service, sent]
      rfl
    · rw [hreleased]
      exact hafter.trans (hbefore.symm.append_left _)
    · rw [service, requests]
      rfl
    · rw [learned?_of_still hreleased, service, pairings]
      rfl
  | ends id device due finished sent requests pairings =>
    rw [finished] at hafter
    refine ⟨.none, ?_, ?_, ?_, ?_⟩
    · rw [service, sent]
      exact (List.append_nil _).symm
    · rw [hreleased]
      exact (hafter.append_left _).trans hbefore.symm
    · rw [service, requests]
      rfl
    · have hlearned := learned?_of_released hreleased
      dsimp only at hlearned
      rw [hturn, Bool.true_and] at hlearned
      rw [hlearned, service, pairings]
      by_cases haccepted : s.service.pairing.stateOf id = .accepted
      · have haccepts : s.accepts id = true := decide_eq_true haccepted
        rw [if_pos haccepted, haccepts]
        rfl
      · have haccepts : s.accepts id = false := decide_eq_false haccepted
        rw [if_neg haccepted, haccepts]
        rfl

/-- **A step sends a request and begins to wait for it, ends a wait, or leaves all this alone.** -/
theorem booked_of_step (S : s.Sound) (named : s.Named) (h : s.step a = some (t, events)) :
    ∃ sent, Booked ⟨s, a, t, events⟩ sent := by
  have hapart (still : leaves? ⟨s, a, t, events⟩ = none) : ∀ label, a ≠ .run (.call label) := by
    rintro label rfl
    obtain ⟨c, _, here, -⟩ := runCall_some h
    have hphase : s.phaseOf? (.call label) = some c.phase := by
      rw [phaseOf?_call, here]
      rfl
    cases hphase.symm.trans still
  have hstill (still : leaves? ⟨s, a, t, events⟩ = none) :
      released? ⟨s, a, t, events⟩ = none := by
    rw [released?, still]
    rfl
  cases shift_of_step named h with
  | rests still phases ledger =>
    refine ⟨none, .of_ledger (sentIds_of_apart S h (hapart still)) ledger
      (learned?_of_still (hstill still)) ?_⟩
    rw [hstill still]
    exact awaited_perm phases
  | begins call still phases ledger =>
    refine ⟨none, .of_ledger (sentIds_of_apart S h (hapart still)) ledger
      (learned?_of_still (hstill still)) ?_⟩
    have hawaited := awaited_perm phases
    rw [hstill still]
    exact hawaited
  | refills common own asked phases ledger =>
    have still : leaves? ⟨s, a, t, events⟩ = none := leaves?_of_apart (by rw [asked]; rfl)
    refine ⟨none, .of_ledger (sentIds_of_apart S h (hapart still)) ledger
      (learned?_of_still (hstill still)) ?_⟩
    rw [hstill still]
    exact awaited_perm (.of_eq phases)
  | moves task asked phase here party move moves service others before after =>
    exact booked_of_moves S asked here moves service before after
  | drops dropped phase left phases ledger =>
    have hsent := sentIds_of_apart S h fun label => dropped (.call label)
    have hreleased : released? ⟨s, a, t, events⟩ = phase.awaited? := by
      rw [released?, left]
      rfl
    have hlearned : learned? ⟨s, a, t, events⟩ = none := by
      cases hid : released? ⟨s, a, t, events⟩ with
      | none => exact learned?_of_still hid
      | some id =>
        rw [learned?_of_released hid, isTurn_of_dropped dropped]
        rfl
    refine ⟨none, .of_ledger hsent ledger hlearned ?_⟩
    have hbefore := awaited_perm phases
    rw [filterMap_cons_toList] at hbefore
    rw [hreleased]
    exact hbefore.symm

/-! ### Runs -/

/-- What a run keeps: whoever sent a request waits for it, or its wait ended in a step. -/
structure Waiting (s : Server) (steps : List Step) : Prop where
  requests : s.service.metrics.pairRequests = s.service.pairing.sentIds.length
  whole : s.service.pairing.sentIds.Perm (s.awaited ++ steps.filterMap released?)
  learned : s.service.metrics.pairings = (steps.filterMap learned?).length

theorem waiting_start {config : Config} {epoch : Int} (hstart : ofConfig config epoch = .ok s) :
    Waiting s [] := by
  obtain ⟨directory, limits, rfl⟩ := ofConfig_eq hstart
  exact ⟨rfl, .nil, rfl⟩

/-- One more step keeps it. -/
theorem waiting_step {z : Step} {sent : Option RequestId} (W : Waiting z.before steps)
    (B : Booked z sent) : Waiting z.after (steps ++ [z]) := by
  constructor
  case requests =>
    have hrequests := B.requests
    rw [W.requests] at hrequests
    rw [hrequests, B.sentIds, List.length_append]
  case whole =>
    have hsent : (z.before.service.pairing.sentIds ++ sent.toList).Perm
        (sent.toList ++ z.before.awaited ++ steps.filterMap released?) := by
      rw [List.append_assoc]
      exact List.perm_append_comm.trans (W.whole.append_left _)
    have hreleased : (sent.toList ++ z.before.awaited ++ steps.filterMap released?).Perm
        ((released? z).toList ++ z.after.awaited ++ steps.filterMap released?) :=
      B.awaited.symm.append_right _
    have hlast : ((released? z).toList ++ z.after.awaited ++ steps.filterMap released?).Perm
        (z.after.awaited ++ (steps.filterMap released? ++ (released? z).toList)) := by
      rw [List.append_assoc, ← List.append_assoc z.after.awaited]
      exact List.perm_append_comm
    rw [B.sentIds, filterMap_concat]
    exact (hsent.trans hreleased).trans hlast
  case learned => rw [B.pairings, W.learned, filterMap_concat, List.length_append]

/-- **Along a run the waits account for the requests, and what was learned for the pairings.** -/
theorem waiting_of_history {config : Config} {epoch : Int}
    (hstart : ofConfig config epoch = .ok start) (h : machine.History start s steps) :
    Waiting s steps := by
  obtain ⟨-, hcalls, hsessions⟩ := ofConfig_ok hstart
  induction h with
  | start => exact waiting_start hstart
  | step hs hstep ih =>
    have named := named_of_history hs hcalls hsessions
    obtain ⟨_, hbooked⟩ := booked_of_step (sound_of_history hs (ofConfig_sound hstart)) named hstep
    exact waiting_step ih hbooked

/-- How the waits of requesters ended, seen from a state after that. -/
def Ended (s : Server) (z : Step) : Prop := ∀ id, released? z = some id →
  learned? z = some id ∧ missed? z = none ∧ s.accepts id = true ∨
    learned? z = none ∧ missed? z = some id ∨
    learned? z = none ∧ missed? z = none ∧ s.accepts id = false

/-- What a requester learns at the end of its wait stays so. -/
theorem ended_of_history (S : start.Sound) (hcalls : start.calls = [])
    (hsessions : start.sessions = []) (h : machine.History start s steps) {z : Step}
    (hz : z ∈ steps) : Ended s z := by
  obtain ⟨earlier, later, -, hbefore, hstep, hafter⟩ := h.of_mem hz
  have Sz := sound_of_history hbefore S
  have named := named_of_history hbefore hcalls hsessions
  have Safter := sound_of_step Sz hstep
  have stays {id : RequestId} (settled : z.after.service.pairing.stateOf id ≠ .pending) :
      s.service.pairing.stateOf id = z.after.service.pairing.stateOf id :=
    (later_of_history hafter Safter).stateOf_eq Safter.requests
      (sound_of_history hafter Safter).requests settled
  intro id released
  cases release_cases Sz named hstep released with
  | learned learned missed accepted =>
    have hstate := stays (by rw [accepted]; simp)
    exact .inl ⟨learned, missed, decide_eq_true (hstate.trans accepted)⟩
  | missed learned missed => exact .inr (.inl ⟨learned, missed⟩)
  | refused learned missed rejected =>
    have hstate := stays (by rw [rejected]; simp)
    have hrejected : s.service.pairing.stateOf id ≠ .accepted := by
      rw [hstate, rejected]
      simp
    exact .inr (.inr ⟨learned, missed, decide_eq_false hrejected⟩)

/-- Of the requests whose requesters no longer wait the accepted ones were learned or missed. -/
theorem countP_released (h : ∀ z ∈ steps, Ended s z) :
    (steps.filterMap released?).countP s.accepts =
      (steps.filterMap learned?).length + (missed steps).countP s.accepts := by
  unfold missed
  induction steps with
  | nil => rfl
  | cons z steps ih =>
    have hrest := ih fun y hy => h y (List.mem_cons_of_mem z hy)
    rw [filterMap_cons_toList, filterMap_cons_toList, filterMap_cons_toList, List.countP_append,
      List.countP_append, List.length_append, hrest]
    cases hreleased : released? z with
    | none =>
      rw [learned?_of_still hreleased, missed?_of_still hreleased]
      dsimp only [Option.toList_none, List.countP_nil, List.length_nil]
      omega
    | some id =>
      rcases h z List.mem_cons_self id hreleased with ⟨hlearned, hmissed, haccepts⟩ |
        ⟨hlearned, hmissed⟩ | ⟨hlearned, hmissed, haccepts⟩ <;>
        rw [hlearned, hmissed] <;> dsimp only [Option.toList_none, Option.toList_some,
          List.countP_nil, List.length_nil, List.length_singleton]
      · rw [List.countP_singleton, haccepts, if_pos rfl]
        omega
      · omega
      · rw [List.countP_singleton, haccepts, if_neg Bool.false_ne_true]
        omega

theorem Quiet.awaited (Q : s.Quiet) (S : s.Sound) : s.awaited = [] := by
  refine List.filterMap_eq_nil_iff.mpr fun phase hphase => ?_
  rcases List.mem_append.mp hphase with hphase | hphase
  · obtain ⟨c, hc, rfl⟩ := List.mem_map.mp hphase
    have hasks := Q.nobody c hc
    cases hawaits : c.phase with
    | awaits => rw [hawaits] at hasks; cases hasks
    | _ => rfl
  · obtain ⟨x, hx, hphase⟩ := List.mem_filterMap.mp hphase
    cases hsession : x.phase with
    | publishes messageId previous =>
      rw [hsession] at hphase
      obtain rfl : previous = phase := Option.some.inj hphase
      have hpublishes := S.sessions x hx messageId previous hsession
      cases previous with
      | awaits => exact hpublishes.elim
      | _ => rfl
    | _ => rw [hsession] at hphase; cases hphase

/-- **Every request that was sent is counted, and an accepted one unless its requester still
waits or missed it**, in every state of every run. -/
theorem recounted_of_history {config : Config} {epoch : Int}
    (hstart : ofConfig config epoch = .ok start) (h : machine.History start s steps) :
    Recounted s steps := by
  obtain ⟨-, hcalls, hsessions⟩ := ofConfig_ok hstart
  have S := ofConfig_sound hstart
  have W := waiting_of_history hstart h
  have hreleased := countP_released fun z hz => ended_of_history S hcalls hsessions h hz
  have hpairings : s.service.pairing.sentIds.countP s.accepts =
      s.service.metrics.pairings + s.awaited.countP s.accepts +
        (missed steps).countP s.accepts := by
    rw [W.whole.countP_eq, List.countP_append, hreleased, W.learned]
    omega
  refine ⟨W.requests, hpairings, fun Q => ?_⟩
  rw [hpairings, Q.awaited (sound_of_history h S), List.countP_nil, Nat.add_zero, eq_comm,
    Nat.add_eq_left, List.countP_eq_zero]
  simp only [Bool.not_eq_true]

/-! ### Two requests -/

/-- A user asks for a device, and its call is dropped. The device accepts all the same. -/
def droppedAsking : List Action :=
  [.call "pair" (.pair ⟨7⟩ Coordinator.alice (.number ⟨2⟩)), .run (.call "pair"),
    .run (.call "pair"), .dropCall "pair",
    .call "respond" (.respond Coordinator.phone ⟨7⟩ true), .run (.call "respond"),
    .run (.background (.write ⟨7⟩)), .run (.call "respond")]

/-- After that the device leaves, and the user asks for it again and waits for the answer. -/
def askedTwice : List Action := droppedAsking ++
  [.call "unpair" (.unpair Coordinator.phone ⟨2⟩), .run (.call "unpair"), .run (.call "unpair"),
    .call "pair" (.pair ⟨8⟩ Coordinator.alice (.number ⟨2⟩)), .run (.call "pair"),
    .run (.call "pair"), .call "respond" (.respond Coordinator.phone ⟨8⟩ true),
    .run (.call "respond"), .run (.background (.write ⟨8⟩)), .run (.call "respond"),
    .run (.call "pair")]

theorem replay_askedTwice : (machine.replay hastyStart askedTwice).isSome = true := by
  decide +kernel

/-- Two requests were accepted, of which the requester missed the first. -/
theorem recounted_of_two : ∃ (start s : Server) (steps : List Step),
    ofConfig hasty 0 = .ok start ∧ machine.History start s steps ∧ missed steps = [⟨7⟩] ∧
      s.service.pairing.sentIds.countP s.accepts = 2 ∧ s.service.metrics.pairings = 1 ∧
      Recounted s steps := by
  have hstart : ofConfig hasty 0 = .ok hastyStart := rfl
  have h := Machine.history_of_replayed replay_askedTwice
  exact ⟨_, _, _, hstart, h, by decide +kernel, by decide +kernel, by decide +kernel,
    recounted_of_history hstart h⟩

theorem replay_droppedAsking : (machine.replay hastyStart droppedAsking).isSome = true := by
  decide +kernel

/-- **An accepted request is not counted when nobody asks and nothing is being recorded.** -/
theorem uncounted_of_dropped : ∃ (start s : Server) (steps : List Step),
    hasty.check = .ok () ∧ ofConfig hasty 0 = .ok start ∧ machine.History start s steps ∧
      steps.map (·.action) = droppedAsking ∧ s.Quiet ∧ s.service.metrics.pairRequests = 1 ∧
      s.service.pairing.sentIds.countP s.accepts = 1 ∧ s.service.metrics.pairings = 0 := by
  have hstart : ofConfig hasty 0 = .ok hastyStart := rfl
  have h := Machine.history_of_replayed replay_droppedAsking
  have hactions := Machine.actions_of_replay (Option.some_get replay_droppedAsking).symm
  exact ⟨_, _, _, rfl, hstart, h, hactions, ⟨by decide +kernel, by decide +kernel⟩,
    by decide +kernel, by decide +kernel, by decide +kernel⟩

end Server
end DeviceRelay
