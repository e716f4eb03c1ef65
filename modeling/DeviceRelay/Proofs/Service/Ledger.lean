/-
# What calls use up, and what they are counted in

A call takes cells of the rates when it begins to publish, and holds them until its letter is
queued or refused. A request is counted when it is sent. Its requester waits for it from then on,
and if the wait ends on an accepted request, that is counted as well. No other step of a call
touches the cells or these counts.

Key definitions: `Service.Ledger`, `Phase.awaited?`, `Phase.cell?`, `Service.Booked`,
`Service.Spent`.
Key theorems: `Service.booked_of_step?`, `Service.spent_of_step?`, `Service.settled_of_endWait?`.
-/
import DeviceRelay.Proofs.RateLimits
import DeviceRelay.Proofs.Service.Phases

namespace DeviceRelay

/-- The phase to which a call goes on. -/
def Progress.next? : Progress → Option Phase
  | .goesOn phase => some phase
  | .ends _ => none

/-- The request for which a call waits. -/
def Phase.awaited? : Phase → Option RequestId
  | .awaits id _ _ => some id
  | _ => none

/-- The sender whose cells a call holds: it took them, and its letter is on the way. -/
def Phase.cell? : Phase → Option PrincipalId
  | .compares letter _ | .queues letter => some letter.sender
  | _ => none

namespace Service

/-- What calls use up, and what they are counted in. -/
structure Ledger where
  limits : RateLimits
  /-- Requests that were sent. -/
  pairRequests : Nat
  /-- Requests that a requester found accepted. -/
  pairings : Nat

def ledger (s : Service) : Ledger where
  limits := s.limits
  pairRequests := s.metrics.pairRequests
  pairings := s.metrics.pairings

/-- What a step of a call does to the requests that were sent and to their counts. -/
inductive Booked (s : Service) (m : Move) : Phase → Prop where
  /-- Nothing: the call neither waited for a request nor begins to. -/
  | rests (phase : Phase) (before : phase.awaited? = none)
    (after : m.progress.next?.bind Phase.awaited? = none)
    (sent : m.service.pairing.sentIds = s.pairing.sentIds)
    (requests : m.service.metrics.pairRequests = s.metrics.pairRequests)
    (pairings : m.service.metrics.pairings = s.metrics.pairings) : Booked s m phase
  /-- It sends its request and begins to wait for it. -/
  | sends (id : RequestId) (requester target : Principal)
    (after : m.progress.next?.bind Phase.awaited? = some id)
    (sent : m.service.pairing.sentIds = s.pairing.sentIds ++ [id])
    (requests : m.service.metrics.pairRequests = s.metrics.pairRequests + 1)
    (pairings : m.service.metrics.pairings = s.metrics.pairings) :
    Booked s m (.sends id requester target)
  /-- Its wait ends. -/
  | ends (id : RequestId) (device : PrincipalId) (due : Nat) (finished : m.progress.next? = none)
    (sent : m.service.pairing.sentIds = s.pairing.sentIds)
    (requests : m.service.metrics.pairRequests = s.metrics.pairRequests)
    (pairings : m.service.metrics.pairings =
      s.metrics.pairings + if s.pairing.stateOf id = .accepted then 1 else 0) :
    Booked s m (.awaits id device due)

/-- What a step of a call does to the cells. -/
inductive Spent (s : Service) (phase : Phase) (m : Move) : Prop where
  /-- None are taken: the call goes on to hold its own, or gives them up. -/
  | rests (limits : m.service.limits = s.limits)
    (after : ∀ sender, m.progress.next?.bind Phase.cell? = some sender →
      phase.cell? = some sender ∧ ∀ letter, phase ≠ .queues letter)
  /-- A call that begins takes cells, and holds them if it got all it needs. -/
  | takes (sender : PrincipalId) (before : phase.cell? = none)
    (limits : m.service.limits = (s.limits.takeCells sender).1)
    (after : ∀ q, m.progress.next?.bind Phase.cell? = some q →
      q = sender ∧ (s.limits.takeCells sender).2 = .ok ())

variable {s : Service} {party : Party} {phase : Phase} {m : Move}

theorem next?_eq_some {progress : Progress} {next : Phase} (h : progress.next? = some next) :
    progress = .goesOn next := by
  cases progress with
  | goesOn phase => exact congrArg Progress.goesOn (Option.some.inj h)
  | ends => cases h

theorem awaited?_eq_some {id : RequestId} (h : phase.awaited? = some id) :
    phase.awaitsFor id := by
  cases phase with
  | awaits => exact Option.some.inj h
  | _ => cases h

/-! ### The ledger -/

theorem ledger_beginPublish (letter : Letter) : (s.beginPublish letter).service.ledger =
    { s.ledger with limits := (s.limits.takeCells letter.sender).1 } := by
  have hrates : (s.checkRates letter.sender).1.ledger =
      { s.ledger with limits := (s.limits.takeCells letter.sender).1 } := by
    unfold checkRates
    split <;> next htaken => rw [htaken]; rfl
  unfold beginPublish
  split <;> rename_i h <;> rw [h] at hrates
  · exact hrates
  · split
    · exact hrates
    · split
      · exact hrates
      · split <;> exact hrates

theorem ledger_begin (party : Party) {call : Call} (silent : (Phase.begins call).letter? = none) :
    (s.begin party call).service.ledger = s.ledger := by
  cases call with
  | pair id requester device =>
    dsimp only [begin, beginPair]
    split
    · rfl
    · split <;> rfl
  | poll device timeout =>
    dsimp only [begin, beginPoll]
    split
    · rfl
    · split <;> rfl
  | respond device id accept =>
    dsimp only [begin, respond]
    split
    · rfl
    · split <;> split <;> rfl
  | owner device =>
    dsimp only [begin, ownerOf]
    split
    · rfl
    · split <;> rfl
  | devices user =>
    dsimp only [begin, devicesOf]
    split
    · rfl
    · split <;> rfl
  | unpair caller device =>
    dsimp only [begin, beginUnpair]
    split
    · rfl
    · rfl
    · split <;> rfl
  | publish => cases silent
  | consume recipient timeout => rfl

/-- A step leaves the ledger alone, unless a call begins to publish, sends a request or ends its
wait for one. -/
theorem ledger_of_step? (h : s.step? party phase = some m)
    (silent : ∀ call, phase = .begins call → phase.letter? = none)
    (apart : ∀ id requester target, phase ≠ .sends id requester target)
    (idle : phase.awaited? = none) : m.service.ledger = s.ledger := by
  cases phase with
  | begins call =>
    obtain rfl := Option.some.inj h
    exact ledger_begin party (silent call rfl)
  | sends id requester target => exact absurd rfl (apart id requester target)
  | awaits => cases idle
  | lists | records =>
    obtain ⟨_, -, rfl⟩ := Option.map_eq_some_iff.mp h
    rfl
  | removes device =>
    obtain rfl := Option.some.inj h
    dsimp only [removePairing]
    split <;> rfl
  | compares letter senderOwner =>
    obtain rfl := Option.some.inj h
    dsimp only [compareOwners]
    split
    · rfl
    · split <;> rfl
  | queues letter =>
    obtain rfl := Option.some.inj h
    dsimp only [enqueue]
    split <;> rfl
  | consumes =>
    obtain ⟨⟨relay, consumed?⟩, -, rfl⟩ := Option.map_eq_some_iff.mp h
    cases consumed? <;> rfl

/-! ### Requests -/

theorem ledger_conclude (id : RequestId) (device : PrincipalId) (state : PairingState) :
    (s.conclude id device state).service.ledger = { s.ledger with
      pairings := s.metrics.pairings + if state = .accepted then 1 else 0 } := by
  unfold conclude
  by_cases hcancelled : state = .rejected ∧ s.pairing.isShutDown = true
  · have hstate : state ≠ .accepted := by
      rw [hcancelled.1]
      simp
    rw [if_pos hcancelled, if_neg hstate]
    rfl
  · rw [if_neg hcancelled]
    by_cases hstate : state = .accepted
    · rw [if_pos hstate, if_pos hstate]
      rfl
    · rw [if_neg hstate, if_neg hstate]
      rfl

/-- A wait that ends finds its request being recorded, or settled, or rejects it. -/
theorem settled_of_endWait? (S : s.pairing.Sound) {id : RequestId} {device : PrincipalId}
    {due : Nat} (hsent : s.pairing.stage id ≠ .unsent) (h : s.endWait? id device due = some m) :
    s.pairing.stage id = .recording ∧ m.service.pairing = s.pairing ∨
      s.pairing.stateOf id ≠ .pending ∧ m.service.pairing = s.pairing ∨
      s.pairing.stateOf id = .pending ∧ due ≤ s.clock.now ∧
        m.service.pairing.stage id = .rejected := by
  unfold endWait? at h
  split at h
  · next hpending =>
    obtain ⟨hdue, h⟩ := Option.ite_none_right_eq_some.mp h
    split at h <;> rename_i hreject <;> obtain rfl := Option.some.inj h
    · have M := Coordinator.reject_moves S hreject
      refine .inr (.inr ⟨hpending, hdue, ?_⟩)
      rw [(conclude_kept ..).1]
      exact M.moved
    · refine .inl ⟨?_, (conclude_kept ..).1⟩
      have hlive : s.pairing.stage id ≠ .live := fun hlive =>
        Coordinator.not_live_of_reject hreject ((Coordinator.stage_eq_live_iff ..).mp hlive)
      rw [S.stateOf_eq] at hpending
      generalize s.pairing.stage id = stage at *
      cases stage with
      | unsent => exact absurd rfl hsent
      | live => exact absurd rfl hlive
      | recording => rfl
      | ended r => exact absurd hpending (Stage.stateAfter_ne_pending r)
      | rejected => cases hpending
  · next hsettled =>
    obtain rfl := Option.some.inj h
    exact .inr (.inl ⟨hsettled, (conclude_kept ..).1⟩)

theorem ledger_endWait? (S : s.pairing.Sound) {id : RequestId} {device : PrincipalId} {due : Nat}
    (h : s.endWait? id device due = some m) : m.service.ledger = { s.ledger with
      pairings := s.metrics.pairings + if s.pairing.stateOf id = .accepted then 1 else 0 } := by
  unfold endWait? at h
  split at h
  · next hpending =>
    obtain ⟨-, h⟩ := Option.ite_none_right_eq_some.mp h
    split at h <;> rename_i hreject <;> obtain rfl := Option.some.inj h
    · have M := Coordinator.reject_moves S hreject
      rw [ledger_conclude, hpending]
      dsimp only
      rw [M.sound.stateOf_eq, M.moved]
      rfl
    · rw [ledger_conclude, hpending]
  · obtain rfl := Option.some.inj h
    rw [ledger_conclude]

theorem booked_sendRequest {id : RequestId} {requester target : Principal} :
    Booked s (s.sendRequest id requester target) (.sends id requester target) := by
  unfold sendRequest
  split
  · exact .rests _ rfl rfl rfl rfl rfl
  · next hsend =>
    obtain ⟨-, -, rfl⟩ := Coordinator.send_ok hsend
    refine .sends id requester target rfl ?_ rfl rfl
    exact List.map_append

theorem next?_of_endWait? {id : RequestId} {device : PrincipalId} {due : Nat}
    (h : s.endWait? id device due = some m) : m.progress.next? = none := by
  have hends (v : Service) (state : PairingState) :
      (v.conclude id device state).progress.next? = none := by
    rcases conclude_ends (s := v) id device state with hends | hends <;> rw [hends] <;> rfl
  unfold endWait? at h
  split at h
  · obtain ⟨-, h⟩ := Option.ite_none_right_eq_some.mp h
    split at h <;> obtain rfl := Option.some.inj h <;> exact hends ..
  · obtain rfl := Option.some.inj h
    exact hends ..

/-- **A request is counted when it is sent, and an accepted one when the wait for it ends.** -/
theorem booked_of_step? (S : s.pairing.Sound)
    (hwants : ∀ id, phase.wants id → s.pairing.stage id = .unsent)
    (h : s.step? party phase = some m) : Booked s m phase := by
  obtain ⟨op, M⟩ := stepped S hwants h
  have hnext (hphase : ∀ id requester target, phase ≠ .sends id requester target) :
      m.progress.next?.bind Phase.awaited? = none := by
    cases hwaits : m.progress.next?.bind Phase.awaited? with
    | none => rfl
    | some id =>
      obtain ⟨next, hnext, hawaited⟩ := Option.bind_eq_some_iff.mp hwaits
      obtain ⟨p, q, hop⟩ := M.awaits next (next?_eq_some hnext) id (awaited?_eq_some hawaited)
      exact absurd (M.sends id p q hop).1 (hphase id p q)
  have hsent (hphase : ∀ id requester target, phase ≠ .sends id requester target) :
      m.service.pairing.sentIds = s.pairing.sentIds :=
    M.change.sentIds S fun id p q hop => hphase id p q (M.sends id p q hop).1
  cases phase with
  | sends id requester target =>
    obtain rfl := Option.some.inj h
    exact booked_sendRequest
  | awaits id device due =>
    have hledger := ledger_endWait? S h
    exact .ends id device due (next?_of_endWait? h) (hsent nofun)
      (congrArg Ledger.pairRequests hledger) (congrArg Ledger.pairings hledger)
  | begins call =>
    have hledger : m.service.ledger.pairRequests = s.ledger.pairRequests ∧
        m.service.ledger.pairings = s.ledger.pairings := by
      cases hletter : (Phase.begins call).letter? with
      | none =>
        rw [ledger_of_step? h (fun _ _ => hletter) nofun rfl]
        exact ⟨rfl, rfl⟩
      | some letter =>
        cases call with
        | publish =>
          obtain rfl := Option.some.inj h
          dsimp only [begin]
          rw [ledger_beginPublish]
          exact ⟨rfl, rfl⟩
        | _ => cases hletter
    exact .rests _ rfl (hnext nofun) (hsent nofun) hledger.1 hledger.2
  | lists | records | removes | compares | queues | consumes =>
    have hledger := ledger_of_step? h nofun nofun rfl
    exact .rests _ rfl (hnext nofun) (hsent nofun) (congrArg Ledger.pairRequests hledger)
      (congrArg Ledger.pairings hledger)

/-! ### Cells -/

theorem spent_beginPublish {letter : Letter} (before : phase.cell? = none) :
    Spent s phase (s.beginPublish letter) := by
  refine .takes letter.sender before (congrArg Ledger.limits (ledger_beginPublish letter)) ?_
  intro q hq
  unfold beginPublish checkRates at hq
  cases htaken : s.limits.takeCells letter.sender with
  | mk limits result =>
  rw [htaken] at hq
  cases result with
  | error e => cases hq
  | ok _ =>
    refine ⟨?_, rfl⟩
    dsimp only at hq
    split at hq
    · cases hq
    · split at hq
      · exact (Option.some.inj hq).symm
      · split at hq
        · cases hq
        · exact (Option.some.inj hq).symm

theorem cell?_of_waits {next : Phase} (h : next.waits) : next.cell? = none := by
  cases next with
  | awaits | lists | consumes => rfl
  | _ => exact h.elim

/-- **Cells are taken when a call begins to publish**, and no others are held. -/
theorem spent_of_step? (S : s.pairing.Sound) (h : s.step? party phase = some m) :
    Spent s phase m := by
  have hnext {q : PrincipalId} (hq : m.progress.next?.bind Phase.cell? = some q) :
      ∃ next, Follows s phase next ∧ next.cell? = some q := by
    obtain ⟨next, hnext, hcell⟩ := Option.bind_eq_some_iff.mp hq
    exact ⟨next, (passes_of_step? h).follows (next?_eq_some hnext), hcell⟩
  have hwaits {next : Phase} {q : PrincipalId} (hw : next.waits) (hcell : next.cell? = some q) :
      False := by
    rw [cell?_of_waits hw] at hcell
    cases hcell
  cases phase with
  | begins call =>
    cases hletter : (Phase.begins call).letter? with
    | none =>
      have hledger := ledger_of_step? h (fun _ _ => hletter) nofun rfl
      refine .rests (congrArg Ledger.limits hledger) fun q hq => ?_
      obtain ⟨next, hfollows, hcell⟩ := hnext hq
      cases hfollows with
      | waits _ _ hw => exact (hwaits hw hcell).elim
      | asks | claims | mayRemove => cases hcell
      | toItself _ _ carries | learns _ _ carries =>
        rw [hletter] at carries
        cases carries
    | some letter =>
      cases call with
      | publish =>
        obtain rfl := Option.some.inj h
        exact spent_beginPublish rfl
      | _ => cases hletter
  | compares letter senderOwner =>
    have hledger := ledger_of_step? h nofun nofun rfl
    refine .rests (congrArg Ledger.limits hledger) fun q hq => ?_
    obtain ⟨next, hfollows, hcell⟩ := hnext hq
    cases hfollows with
    | waits _ _ hw => exact (hwaits hw hcell).elim
    | connects => exact ⟨hcell, nofun⟩
  | sends id requester target =>
    have hlimits : m.service.limits = s.limits := by
      obtain rfl := Option.some.inj h
      dsimp only [sendRequest]
      split <;> rfl
    refine .rests hlimits fun q hq => ?_
    obtain ⟨next, hfollows, hcell⟩ := hnext hq
    cases hfollows with
    | waits _ _ hw => exact (hwaits hw hcell).elim
  | awaits id device due =>
    have hledger := ledger_endWait? S h
    refine .rests (congrArg Ledger.limits hledger) fun q hq => ?_
    rw [next?_of_endWait? h] at hq
    cases hq
  | lists | records | removes | queues | consumes =>
    have hledger := ledger_of_step? h nofun nofun rfl
    refine .rests (congrArg Ledger.limits hledger) fun q hq => ?_
    obtain ⟨next, hfollows, hcell⟩ := hnext hq
    cases hfollows with
    | waits _ _ hw => exact (hwaits hw hcell).elim

end Service
end DeviceRelay
