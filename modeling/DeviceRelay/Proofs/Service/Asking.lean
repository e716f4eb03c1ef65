/-
# A refused wish leaves no trace, and a request is over when its requester returns

Whoever asks for a device is refused if it is a device itself, then if the device is unknown, then
if it names no device, then if the store tells that the device has an owner, and then if the store
fails. The first objection decides, and nothing is made, woken or counted. Without any the request
is sent in a later step, unless the place was shut down by then, which refuses it without a trace
as well. A request that is sent is live, has a timer and is counted. When its requester returns,
whatever settled the request or did not, it is not live and has no timer.

Key definitions: `Service.pairChecks`, `Service.Made`, `Service.Over`, `Service.AskTurn`.
Key theorems: `Service.beginPair_decided`, `Service.made_of_sendRequest`,
`Service.over_of_endWait?`.
-/
import DeviceRelay.Proofs.Service.Ledger
import DeviceRelay.Proofs.Service.Publishing

namespace DeviceRelay

/-- Why a store tells nothing at present, if so. -/
def PairingStore.outage? (s : PairingStore) : Option StorageError :=
  match s.fault with
  | some (.error cause) => some cause
  | _ => none

/-- The owner of a device that a store tells, if it tells any. -/
def PairingStore.toldOwner? (s : PairingStore) (device : PrincipalId) : Option PrincipalId :=
  match s.read fun edges => edges.owner? device with
  | .ok owner? => owner?
  | .error _ => none

namespace Service

/-- What is objected to whoever asks for a device, check by check in their order. -/
def pairChecks (s : Service) (requester : Principal) (device : DeviceRef) : List (Option Error) :=
  let target? := device.find? s.directory
  [if requester.isDevice then some (.forbidden "devices cannot request pairing") else none,
    if target?.isNone then some (.notFound device.text) else none,
    target?.bind fun target =>
      if target.isDevice then none
      else some (.invalidPairingTarget s!"{target.username} is not a device"),
    target?.bind fun target => (s.store.toldOwner? target.id).map fun _ => .alreadyPaired target.id,
    s.store.outage?.map .storage]

/-- A request was made: it is live and has a timer, and it is counted. No other one was made. -/
structure Made (s t : Service) (request : PairingRequest) : Prop where
  states : t.pairing.states = s.pairing.states ++ [(request.id, .pending)]
  live : t.pairing.live.registry.values =
    s.pairing.live.registry.values ++ [(request.id, request)]
  timers : t.pairing.timers =
    s.pairing.timers ++ [(request.id, timerDue s.clock.now s.pairing.ttl)]
  metrics : t.metrics = { s.metrics with pairRequests := s.metrics.pairRequests + 1 }

/-- How a call ends that made a request. -/
structure Over (s t : Service) (id : RequestId) (device : PrincipalId) (ending : Ending) : Prop where
  live : id ∉ t.pairing.liveIds
  timed : id ∉ t.pairing.timerIds
  /-- It makes no other request. -/
  sent : t.pairing.sentIds = s.pairing.sentIds
  /-- The requester learns the state of its request, or that the place was shut down, which
  rejected it. -/
  told : ending = .answered (.outcome ⟨id, device, t.pairing.stateOf id⟩) ∨
    ending = .failed .cancelled ∧ t.pairing.isShutDown = true ∧ t.pairing.stateOf id = .rejected

/-- What a step of a call is that asks for a device, by the phase from which it is made. -/
inductive AskTurn (s : Service) (m : Move) : Phase → Prop where
  /-- The first objection decides, and nothing happens. -/
  | refused (id : RequestId) (requester : Principal) (device : DeviceRef) (e : Error)
    (decided : Error.verdict (s.pairChecks requester device) = .error e)
    (unsent : s.pairing.stage id = .unsent) (fails : m = s.fail e) :
    AskTurn s m (.begins (.pair id requester device))
  /-- Nothing is objected, and nothing happens yet. -/
  | passes (id : RequestId) (requester target : Principal) (device : DeviceRef)
    (decided : Error.verdict (s.pairChecks requester device) = .ok ())
    (found : device.find? s.directory = some target)
    (goes : m = ⟨s, .goesOn (.sends id requester target), none⟩) :
    AskTurn s m (.begins (.pair id requester device))
  /-- The place was shut down, and nothing happens. -/
  | late (id : RequestId) (requester target : Principal) (shut : s.pairing.isShutDown = true)
    (unsent : s.pairing.stage id = .unsent) (fails : m = s.fail .cancelled) :
    AskTurn s m (.sends id requester target)
  | made (id : RequestId) (requester target : Principal) (isOpen : s.pairing.isShutDown = false)
    (unsent : s.pairing.stage id = .unsent)
    (made : Made s m.service ⟨id, requester, target, s.clock.wall⟩) (due : Nat)
    (goes : m.progress = .goesOn (.awaits id target.id due)) :
    AskTurn s m (.sends id requester target)
  | waited (id : RequestId) (device : PrincipalId) (due : Nat) (ending : Ending)
    (ends : m.progress = .ends ending) (after : Over s m.service id device ending) :
    AskTurn s m (.awaits id device due)

variable {s t : Service} {m : Move} {id : RequestId}

/-! ### The checks -/

theorem read_owner (store : PairingStore) (device : PrincipalId) :
    (store.read fun edges => edges.owner? device) = match store.outage? with
      | some cause => .error (.storage cause)
      | none => .ok (store.toldOwner? device) := by
  unfold PairingStore.outage? PairingStore.toldOwner? PairingStore.read
  rcases store.fault with _ | _ | cause <;> rfl

theorem toldOwner?_of_outage {store : PairingStore} {cause : StorageError}
    (h : store.outage? = some cause) (device : PrincipalId) : store.toldOwner? device = none := by
  have hread := read_owner store device
  rw [h] at hread
  rw [PairingStore.toldOwner?, hread]

/-- **The first objection decides whether a device is asked for.** -/
theorem beginPair_decided (s : Service) (id : RequestId) (requester : Principal) (device : DeviceRef) :
    (∃ e, Error.verdict (s.pairChecks requester device) = .error e ∧
      s.beginPair id requester device = s.fail e) ∨
    ∃ target, Error.verdict (s.pairChecks requester device) = .ok () ∧
      device.find? s.directory = some target ∧
      s.beginPair id requester device = ⟨s, .goesOn (.sends id requester target), none⟩ := by
  unfold beginPair pairingTarget pairChecks
  rw [Error.verdict_ite, Error.verdict_ite]
  by_cases huser : requester.isDevice = true
  · rw [if_pos huser, if_pos huser]
    exact .inl ⟨_, rfl, rfl⟩
  · rw [if_neg huser, if_neg huser]
    cases hfind : device.find? s.directory with
    | none => exact .inl ⟨_, rfl, rfl⟩
    | some target =>
      rw [if_neg (by simp), Option.bind_some, Option.bind_some, Error.verdict_cons]
      by_cases hdevice : target.isDevice = true
      · simp only [if_pos hdevice, read_owner, Error.verdict_cons]
        cases houtage : s.store.outage? with
        | some cause =>
          rw [toldOwner?_of_outage houtage]
          exact .inl ⟨_, rfl, rfl⟩
        | none =>
          cases howner : s.store.toldOwner? target.id with
          | some owner => exact .inl ⟨_, rfl, rfl⟩
          | none => exact .inr ⟨target, rfl, rfl, rfl⟩
      · simp only [if_neg hdevice]
        exact .inl ⟨_, rfl, rfl⟩

theorem roles_of_decided {requester target : Principal} {device : DeviceRef}
    (decided : Error.verdict (s.pairChecks requester device) = .ok ())
    (found : device.find? s.directory = some target) :
    requester.isDevice = false ∧ target.isDevice = true := by
  unfold pairChecks at decided
  rw [Error.verdict_ite, Error.verdict_ite, found] at decided
  by_cases huser : requester.isDevice = true
  · rw [if_pos huser] at decided
    cases decided
  · rw [if_neg huser, if_neg (by simp), Option.bind_some, Error.verdict_cons] at decided
    by_cases hdevice : target.isDevice = true
    · exact ⟨Bool.not_eq_true _ ▸ huser, hdevice⟩
    · rw [if_neg hdevice] at decided
      cases decided

/-! ### Sending and waiting -/

theorem refusal_eq {requester target : Principal} (user : requester.isDevice = false)
    (device : target.isDevice = true) : s.pairing.refusal? requester target =
      if s.pairing.isShutDown then some .cancelled else none := by
  unfold Coordinator.refusal? Coordinator.isShutDown
  rw [user, device]
  rfl

theorem late_of_sendRequest {requester target : Principal} (user : requester.isDevice = false)
    (device : target.isDevice = true) (shut : s.pairing.isShutDown = true) :
    s.sendRequest id requester target = s.fail .cancelled := by
  unfold sendRequest Coordinator.send
  rw [refusal_eq user device, if_pos shut]

/-- **A request that is sent is the only thing that is made.** -/
theorem made_of_sendRequest (unsent : s.pairing.stage id = .unsent)
    {requester target : Principal} (user : requester.isDevice = false)
    (device : target.isDevice = true) (isOpen : s.pairing.isShutDown = false) :
    Made s (s.sendRequest id requester target).service ⟨id, requester, target, s.clock.wall⟩ ∧
      ∃ due, (s.sendRequest id requester target).progress = .goesOn (.awaits id target.id due) := by
  have hnew : id ∉ s.pairing.liveIds := Coordinator.not_live_of_stage unsent (by simp)
  unfold sendRequest Coordinator.send
  rw [refusal_eq user device, isOpen]
  refine ⟨⟨rfl, ?_, rfl, rfl⟩, _, rfl⟩
  exact (Rendezvous.values_set ..).trans (Keyed.put_of_not_mem _ hnew)

theorem over_of_conclude {v : Service} (V : v.pairing.Sound) (gone : id ∉ v.pairing.liveIds)
    (sent : v.pairing.sentIds = s.pairing.sentIds) {device : PrincipalId} {state : PairingState}
    (known : v.pairing.stateOf id = state) : ∃ ending,
      (v.conclude id device state).progress = .ends ending ∧
        Over s (v.conclude id device state).service id device ending := by
  have hkept : (v.conclude id device state).service.pairing = v.pairing := (conclude_kept ..).1
  have htold : ∃ ending, (v.conclude id device state).progress = .ends ending ∧
      (ending = .answered (.outcome ⟨id, device, v.pairing.stateOf id⟩) ∨
        ending = .failed .cancelled ∧ v.pairing.isShutDown = true ∧
          v.pairing.stateOf id = .rejected) := by
    unfold conclude
    rw [known]
    by_cases hcancelled : state = .rejected ∧ v.pairing.isShutDown = true
    · rw [if_pos hcancelled]
      exact ⟨_, rfl, .inr ⟨rfl, hcancelled.2, hcancelled.1⟩⟩
    · rw [if_neg hcancelled]
      exact ⟨_, rfl, .inl rfl⟩
  obtain ⟨ending, hends, htold⟩ := htold
  rw [← hkept] at V gone sent htold
  exact ⟨ending, hends, gone, fun htimed => gone ((V.timed id).mp htimed), sent, htold⟩

/-- **When a wait ends, its request is over.** -/
theorem over_of_endWait? (S : s.pairing.Sound) {device : PrincipalId} {due : Nat}
    (h : s.endWait? id device due = some m) :
    ∃ ending, m.progress = .ends ending ∧ Over s m.service id device ending := by
  unfold endWait? at h
  split at h
  · next hpending =>
    obtain ⟨-, h⟩ := Option.ite_none_right_eq_some.mp h
    split at h
    · next pairing _ hreject =>
      obtain rfl := Option.some.inj h
      have M := Coordinator.reject_moves S hreject
      have hgone : id ∉ pairing.liveIds := Coordinator.not_live_of_stage M.moved (by simp)
      refine over_of_conclude M.sound hgone ?_ rfl
      obtain ⟨-, rfl⟩ := Coordinator.reject_ok hreject
      exact Coordinator.sentIds_settle ..
    · next hreject =>
      obtain rfl := Option.some.inj h
      exact over_of_conclude S (Coordinator.not_live_of_reject hreject) rfl hpending
  · next hsettled =>
    obtain rfl := Option.some.inj h
    exact over_of_conclude S (fun hlive => hsettled (S.pending_of_live hlive)) rfl rfl

end Service
end DeviceRelay
