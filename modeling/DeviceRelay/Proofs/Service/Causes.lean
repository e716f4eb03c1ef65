/-
# Why the store of pairings fails makes no difference

A state of the service is veiled when every cause for which the store of pairings fails, or
failed to record a pairing, is replaced by one and the same. Veiled states step as the states
do: what a call ends with is the same but for the cause in it, and an error with another cause
has the same status, the same words and the same reply.

Key definitions: `Error.veiled`, `PairingStore.veiled`, `Coordinator.veiled`, `Service.veiled`,
`Move.veiled`.
Key theorems: `Reply.ofError_veiled`, `Rendering.render_veiled`, `PairingStore.record_veiled`,
`Coordinator.endWrite?_veiled`, `Service.step?_veiled`, `Service.runBackground?_veiled`.
-/
import DeviceRelay.Http.Endpoint
import DeviceRelay.Service.Steps

namespace DeviceRelay

/-! ### Errors -/

/-- The cause that stands for all others. -/
def StorageError.veil : StorageError := .database ""

/-- An error without the cause of a failure of the storage layer. -/
def Error.veiled : Error → Error
  | .storage _ => .storage .veil
  | e => e

@[simp] theorem Error.veiled_veiled (e : Error) : e.veiled.veiled = e.veiled := by
  cases e <;> rfl

/-- **A reply tells nothing of the cause.** -/
@[simp] theorem Reply.ofError_veiled (e : Error) : Reply.ofError e.veiled = Reply.ofError e := by
  cases e <;> rfl

@[simp] theorem HttpResponse.ofError_veiled (e : Error) : ofError e.veiled = ofError e := by
  cases e <;> rfl

/-! ### The store -/

/-- How a store fails, without the cause. -/
def StoreFault.veiled : StoreFault → StoreFault
  | .breakdown => .breakdown
  | .error _ => .error .veil

@[simp] theorem StoreFault.veiled_veiled (fault : StoreFault) :
    fault.veiled.veiled = fault.veiled := by
  cases fault <;> rfl

/-- How a recording ended, without the cause. -/
def Recording.veiled : Recording → Recording
  | .refused e => .refused e.veiled
  | recording => recording

namespace PairingStore

/-- A store without the cause for which it fails. -/
def veiled (s : PairingStore) : PairingStore := { s with fault := s.fault.map StoreFault.veiled }

variable (s : PairingStore)

@[simp] theorem delay_veiled : s.veiled.delay = s.delay := rfl

@[simp] theorem veiled_veiled : s.veiled.veiled = s.veiled := by
  unfold veiled
  rcases s.fault with _ | (_ | _) <;> rfl

theorem read_veiled {α : Type} (f : Edges → α) :
    s.veiled.read f = (s.read f).mapError Error.veiled := by
  unfold read veiled
  rcases s.fault with _ | (_ | _) <;> rfl

theorem remove_veiled (device : PrincipalId) :
    s.veiled.remove device =
      ((s.remove device).1.veiled, (s.remove device).2.mapError Error.veiled) := by
  unfold remove veiled
  rcases hfault : s.fault with _ | (_ | _) <;> simp [hfault] <;> rfl

theorem record_veiled (user device : PrincipalId) :
    s.veiled.record user device =
      ((s.record user device).1.veiled, (s.record user device).2.veiled) := by
  unfold record veiled
  rcases hfault : s.fault with _ | (_ | _)
  · dsimp only [Option.map_none]
    cases s.edges.create? user device <;> simp [hfault, Recording.veiled, Error.veiled]
  · simp [hfault, Recording.veiled, StoreFault.veiled]
  · simp [hfault, Recording.veiled, StoreFault.veiled, Error.veiled]

end PairingStore

/-! ### The recordings -/

/-- A recording without the cause for which it failed. -/
def EdgeWrite.veiled (w : EdgeWrite) : EdgeWrite :=
  { w with recording := w.recording.map Recording.veiled }

@[simp] theorem Recording.veiled_veiled (r : Recording) : r.veiled.veiled = r.veiled := by
  cases r <;> simp [Recording.veiled]

@[simp] theorem EdgeWrite.veiled_veiled (w : EdgeWrite) : w.veiled.veiled = w.veiled := by
  unfold EdgeWrite.veiled
  cases w.recording <;> simp

namespace Coordinator

variable {γ : Type}

/-- The requests without the causes for which recordings failed. -/
def veiled (c : Coordinator γ) : Coordinator γ := { c with writes := c.writes.map EdgeWrite.veiled }

variable (c : Coordinator γ)

@[simp] theorem veiled_veiled : c.veiled.veiled = c.veiled := by
  simp [veiled]

theorem claim_veiled (id : RequestId) :
    c.veiled.claim id = (c.claim id).map fun r => (r.1.veiled, r.2) := by
  unfold claim
  dsimp only [veiled]
  cases c.live.registry.get? id <;> rfl

theorem beginAccept_veiled (store : PairingStore) (now : Nat) (id : RequestId) :
    c.veiled.beginAccept store.veiled now id = (c.beginAccept store now id).map veiled := by
  unfold beginAccept
  rw [claim_veiled]
  cases c.claim id with
  | error e => rfl
  | ok claimed =>
    obtain ⟨c, request⟩ := claimed
    simp [Except.map, veiled, EdgeWrite.veiled]

theorem find?_veiled (writes : List EdgeWrite) {p : EdgeWrite → Bool}
    (hp : ∀ w : EdgeWrite, p w.veiled = p w) :
    (writes.map EdgeWrite.veiled).find? p = (writes.find? p).map EdgeWrite.veiled := by
  rw [List.find?_map]
  congr 2
  exact funext hp

theorem noteEnd_veiled (id : RequestId) (recording : Recording) :
    c.veiled.noteEnd id recording.veiled = (c.noteEnd id recording).veiled := by
  unfold noteEnd veiled
  congr 1
  rw [List.map_map, List.map_map]
  refine List.map_congr_left fun w _ => ?_
  by_cases h : w.request.id = id
  · simp [EdgeWrite.veiled, h]
  · simp [EdgeWrite.veiled, h]

theorem stateAfter_veiled (recording : Recording) :
    stateAfter recording.veiled = stateAfter recording := by
  cases recording <;> rfl

theorem canEnd_veiled (now : Nat) (w : EdgeWrite) : canEnd now w.veiled = canEnd now w := by
  unfold canEnd EdgeWrite.veiled
  rw [Option.isNone_map]

theorem endWrite?_veiled (store : PairingStore) (now : Nat) (id : RequestId) :
    c.veiled.endWrite? store.veiled now id =
      (c.endWrite? store now id).map fun r => (r.1.veiled, r.2.veiled) := by
  have hfind : c.veiled.writes.find? (fun w => w.request.id = id && canEnd now w) =
      (c.writes.find? fun w => w.request.id = id && canEnd now w).map EdgeWrite.veiled :=
    find?_veiled c.writes fun w => by rw [canEnd_veiled]; rfl
  unfold endWrite?
  rw [hfind]
  cases c.writes.find? fun w => w.request.id = id && canEnd now w with
  | none => rfl
  | some w =>
    have hrecord := store.record_veiled w.request.requester.id w.request.target.id
    simp only [Option.map_some, Option.bind_eq_bind, Option.bind_some, EdgeWrite.veiled, hrecord]
    dsimp only [Option.pure_def, Option.map_some]
    rw [noteEnd_veiled, stateAfter_veiled]
    rfl

theorem accepted?_veiled (id : RequestId) :
    c.veiled.accepted? id = (c.accepted? id).map (·.mapError Error.veiled) := by
  have hfind : c.veiled.writes.find? (fun w => w.request.id = id) =
      (c.writes.find? fun w => w.request.id = id).map EdgeWrite.veiled :=
    find?_veiled c.writes fun _ => rfl
  unfold accepted?
  rw [hfind]
  cases c.writes.find? fun w => w.request.id = id with
  | none => rfl
  | some w => rcases hw : w.recording with _ | (_ | _ | _) <;> simp [EdgeWrite.veiled, hw] <;> rfl

theorem reject_veiled (id : RequestId) :
    c.veiled.reject id = (c.reject id).map fun r => (r.1.veiled, r.2) := by
  unfold reject
  rw [claim_veiled]
  cases c.claim id <;> rfl

theorem send_veiled (clock : Clock) (id : RequestId) (requester target : Principal) :
    c.veiled.send clock id requester target =
      (c.send clock id requester target).map fun r => (r.1.veiled, r.2) := by
  unfold send
  have hrefusal : c.veiled.refusal? requester target = c.refusal? requester target := rfl
  rw [hrefusal]
  cases c.refusal? requester target <;> rfl

theorem expire?_veiled (now : Nat) (id : RequestId) :
    c.veiled.expire? now id = (c.expire? now id).map veiled := by
  unfold expire?
  have htimers : c.veiled.timers = c.timers := rfl
  rw [htimers]
  cases c.timers.lookup id with
  | none => rfl
  | some due =>
    simp only [Option.bind_eq_bind, Option.bind_some]
    split
    · have hreject := reject_veiled { c with timers := c.timers.filter (·.1 ≠ id) } id
      have hsame : ({ c with timers := c.timers.filter (·.1 ≠ id) } : Coordinator γ).veiled =
        { c.veiled with timers := c.timers.filter (·.1 ≠ id) } := rfl
      rw [← hsame, hreject]
      cases reject { c with timers := c.timers.filter (·.1 ≠ id) } id <;> rfl
    · rfl

theorem shutDown_veiled : c.veiled.shutDown = c.shutDown.veiled := by
  unfold shutDown
  let rejects (c : Coordinator γ) (x : RequestId × PairingRequest) : Coordinator γ :=
    { c.settle x.1 .rejected with live := c.live.remove x.1 }
  let untimed : Coordinator γ := { c with timers := [] }
  have hfold : c.live.registry.values.foldl rejects untimed.veiled =
      (c.live.registry.values.foldl rejects untimed).veiled :=
    List.foldl_hom veiled fun _ _ => rfl
  exact congrArg (fun c : Coordinator γ => { c with live := c.live.close }) hfold

theorem nextDue?_veiled : c.veiled.nextDue? = c.nextDue? := by
  have hwrites : (c.writes.map EdgeWrite.veiled).filterMap
      (fun w => if w.recording.isNone then some w.due else none) =
        c.writes.filterMap fun w => if w.recording.isNone then some w.due else none := by
    rw [List.filterMap_map]
    congr 1
    funext w
    simp [EdgeWrite.veiled]
  exact congrArg
    (fun writes => (c.timers.map (·.2) ++ writes ++ c.live.nextDue?.toList).min?) hwrites

end Coordinator

/-! ### Moves -/

/-- The end of a call without a cause. -/
def Ending.veiled : Ending → Ending
  | .failed e => .failed e.veiled
  | ending => ending

/-- How a call goes on, without the cause if it failed. -/
def Progress.veiled : Progress → Progress
  | .ends ending => .ends ending.veiled
  | progress => progress

/-- **A response tells nothing of the cause.** -/
theorem Rendering.render_veiled (rendering : Rendering) (ending : Ending) :
    rendering.render ending.veiled = rendering.render ending := by
  cases ending with
  | failed e => exact HttpResponse.ofError_veiled e
  | _ => rfl

/-- A service without the causes. -/
def Service.veiled (s : Service) : Service :=
  { s with store := s.store.veiled, pairing := s.pairing.veiled }

/-- A step of a call without the causes. -/
def Move.veiled (m : Move) : Move :=
  { m with service := m.service.veiled, progress := m.progress.veiled }

/-- What is told of moves without their causes is the same for moves that differ in these only. -/
theorem Move.map_eq_of_veiled {τ : Type} {o o' : Option Move}
    (h : o'.map Move.veiled = o.map Move.veiled) (told : Move → τ) {f f' : Move → τ}
    (hf' : ∀ m : Move, f' m = told m.veiled) (hf : ∀ m : Move, f m = told m.veiled) :
    o'.map f' = o.map f := by
  rw [funext hf, funext hf']
  have hmap := congrArg (Option.map told) h
  rwa [Option.map_map, Option.map_map] at hmap

namespace Service

variable (s : Service)

@[simp] theorem veiled_veiled : s.veiled.veiled = s.veiled := by
  simp [veiled]

theorem fail_veiled (e e' : Error) (h : e'.veiled = e.veiled) :
    (s.veiled.fail e').veiled = (s.fail e).veiled := by
  simp [fail, Move.veiled, Progress.veiled, Ending.veiled, h]

theorem move_veiled (progress : Progress) (started : Option Background) :
    Move.veiled ⟨s.veiled, progress, started⟩ = Move.veiled ⟨s, progress, started⟩ := by
  simp [Move.veiled]

theorem tell_veiled (a : Answer) : (s.veiled.tell a).veiled = (s.tell a).veiled :=
  s.move_veiled _ _

theorem store_veiled : s.veiled.store = s.store.veiled := rfl

theorem pairing_veiled : s.veiled.pairing = s.pairing.veiled := rfl

theorem clock_veiled : s.veiled.clock = s.clock := rfl

/-! ### Pairing -/

theorem beginPair_veiled (id : RequestId) (requester : Principal) (device : DeviceRef) :
    (s.veiled.beginPair id requester device).veiled =
      (s.beginPair id requester device).veiled := by
  unfold beginPair
  have htarget : s.veiled.pairingTarget requester device = s.pairingTarget requester device := rfl
  rw [htarget]
  cases s.pairingTarget requester device with
  | error e => exact s.fail_veiled e e rfl
  | ok target =>
    dsimp only
    rw [store_veiled, PairingStore.read_veiled]
    cases s.store.read fun edges => edges.owner? target.id with
    | error e => exact s.fail_veiled e e.veiled e.veiled_veiled
    | ok owner? =>
      cases owner? with
      | some => exact s.fail_veiled _ _ rfl
      | none => exact s.move_veiled _ _

theorem sendRequest_veiled (id : RequestId) (requester target : Principal) :
    (s.veiled.sendRequest id requester target).veiled =
      (s.sendRequest id requester target).veiled := by
  unfold sendRequest
  rw [pairing_veiled, clock_veiled, Coordinator.send_veiled]
  cases s.pairing.send s.clock id requester target with
  | error e => exact s.fail_veiled e e rfl
  | ok sent =>
    exact move_veiled { s with
      pairing := sent.1
      metrics := { s.metrics with pairRequests := s.metrics.pairRequests + 1 } } _ _

theorem conclude_veiled (id : RequestId) (device : PrincipalId) (state : PairingState) :
    (s.veiled.conclude id device state).veiled = (s.conclude id device state).veiled := by
  unfold conclude
  have hshut : s.veiled.pairing.isShutDown = s.pairing.isShutDown := rfl
  rw [hshut]
  split
  · exact s.fail_veiled _ _ rfl
  · split
    · exact tell_veiled
        { s with metrics := { s.metrics with pairings := s.metrics.pairings + 1 } } _
    · exact s.tell_veiled _

theorem endWait?_veiled (id : RequestId) (device : PrincipalId) (due : Nat) :
    (s.veiled.endWait? id device due).map Move.veiled =
      (s.endWait? id device due).map Move.veiled := by
  have hstate : s.veiled.pairing.stateOf id = s.pairing.stateOf id := rfl
  unfold endWait?
  rw [hstate]
  cases s.pairing.stateOf id with
  | pending =>
    dsimp only
    rw [clock_veiled]
    split
    · rw [pairing_veiled, Coordinator.reject_veiled]
      cases s.pairing.reject id with
      | error e => exact congrArg some (s.conclude_veiled ..)
      | ok rejected => exact congrArg some (conclude_veiled { s with pairing := rejected.1 } ..)
    · rfl
  | _ => exact congrArg some (s.conclude_veiled ..)

theorem beginPoll_veiled (party : Party) (device : Principal) (timeout : Option Nat) :
    (s.veiled.beginPoll party device timeout).veiled =
      (s.beginPoll party device timeout).veiled := by
  unfold beginPoll
  split
  · exact s.fail_veiled _ _ rfl
  · have hlisting : s.veiled.pairing.beginListing s.veiled.clock.now party device.id
        (timeout.getD (s.veiled.config.pairing.pollTimeout * 1000)) =
          ((s.pairing.beginListing s.clock.now party device.id
              (timeout.getD (s.config.pairing.pollTimeout * 1000))).1.veiled,
            (s.pairing.beginListing s.clock.now party device.id
              (timeout.getD (s.config.pairing.pollTimeout * 1000))).2) := rfl
    dsimp only
    rw [hlisting]
    cases s.pairing.beginListing s.clock.now party device.id
        (timeout.getD (s.config.pairing.pollTimeout * 1000)) with
    | mk pairing outcome? =>
      cases outcome? with
      | none => exact move_veiled { s with pairing } _ _
      | some outcome => exact move_veiled { s with pairing } _ _

theorem endPoll?_veiled (party : Party) :
    (s.veiled.endPoll? party).map Move.veiled = (s.endPoll? party).map Move.veiled := by
  have hresume : s.veiled.pairing.resumeListing? s.veiled.clock.now party =
      (s.pairing.resumeListing? s.clock.now party).map fun r => (r.1.veiled, r.2) := by
    unfold Coordinator.resumeListing?
    rw [Option.map_map]
    rfl
  unfold endPoll?
  rw [hresume]
  cases s.pairing.resumeListing? s.clock.now party with
  | none => rfl
  | some r => exact congrArg some (move_veiled { s with pairing := r.1 } _ _)

theorem respond_veiled (device : Principal) (id : RequestId) (accept : Bool) :
    (s.veiled.respond device id accept).veiled = (s.respond device id accept).veiled := by
  have hanswerable : s.veiled.answerable device id = s.answerable device id := rfl
  unfold respond
  rw [hanswerable]
  cases s.answerable device id with
  | error e => exact s.fail_veiled e e rfl
  | ok =>
    cases accept with
    | true =>
      simp only [if_true]
      rw [pairing_veiled, store_veiled, clock_veiled, Coordinator.beginAccept_veiled]
      cases s.pairing.beginAccept s.store s.clock.now id with
      | error e => exact s.fail_veiled e e rfl
      | ok pairing => exact move_veiled { s with pairing } _ _
    | false =>
      simp only [Bool.false_eq_true, if_false]
      rw [pairing_veiled, Coordinator.reject_veiled]
      cases s.pairing.reject id with
      | error e => exact s.fail_veiled e e rfl
      | ok rejected => exact tell_veiled { s with pairing := rejected.1 } _

theorem endAccept?_veiled (id : RequestId) :
    (s.veiled.endAccept? id).map Move.veiled = (s.endAccept? id).map Move.veiled := by
  unfold endAccept?
  rw [pairing_veiled, Coordinator.accepted?_veiled]
  cases s.pairing.accepted? id with
  | none => rfl
  | some result =>
    cases result with
    | error e => exact congrArg some (s.fail_veiled e e.veiled e.veiled_veiled)
    | ok request => exact congrArg some (s.tell_veiled _)

theorem ownerOf_veiled (device : Principal) :
    (s.veiled.ownerOf device).veiled = (s.ownerOf device).veiled := by
  unfold ownerOf
  split
  · exact s.fail_veiled _ _ rfl
  · rw [store_veiled, PairingStore.read_veiled]
    cases s.store.read fun edges => edges.owner? device.id with
    | error e => exact s.fail_veiled e e.veiled e.veiled_veiled
    | ok owner? => exact s.tell_veiled _

theorem devicesOf_veiled (user : Principal) :
    (s.veiled.devicesOf user).veiled = (s.devicesOf user).veiled := by
  unfold devicesOf
  split
  · exact s.fail_veiled _ _ rfl
  · rw [store_veiled, PairingStore.read_veiled]
    cases s.store.read fun edges => edges.devices user.id with
    | error e => exact s.fail_veiled e e.veiled e.veiled_veiled
    | ok ids => exact s.tell_veiled _

theorem beginUnpair_veiled (caller : Principal) (device : PrincipalId) :
    (s.veiled.beginUnpair caller device).veiled = (s.beginUnpair caller device).veiled := by
  unfold beginUnpair
  rw [store_veiled, PairingStore.read_veiled]
  cases s.store.read fun edges => edges.owner? device with
  | error e => exact s.fail_veiled e e.veiled e.veiled_veiled
  | ok owner? =>
    cases owner? with
    | none => exact s.fail_veiled _ _ rfl
    | some owner =>
      dsimp only [Except.mapError]
      split
      · exact s.move_veiled _ _
      · exact s.fail_veiled _ _ rfl

theorem removePairing_veiled (device : PrincipalId) :
    (s.veiled.removePairing device).veiled = (s.removePairing device).veiled := by
  unfold removePairing
  rw [store_veiled, PairingStore.remove_veiled]
  rcases s.store.remove device with ⟨store, e | _⟩
  · exact fail_veiled { s with store } e e.veiled e.veiled_veiled
  · exact tell_veiled { s with store } _

/-! ### Messages -/

theorem checkRates_veiled (sender : PrincipalId) :
    s.veiled.checkRates sender = ((s.checkRates sender).1.veiled, (s.checkRates sender).2) := by
  unfold checkRates
  rw [show s.veiled.limits = s.limits from rfl]
  rcases s.limits.takeCells sender with ⟨limits, _ | _⟩ <;> rfl

theorem beginPublish_veiled (letter : Letter) :
    (s.veiled.beginPublish letter).veiled = (s.beginPublish letter).veiled := by
  unfold beginPublish
  rw [checkRates_veiled]
  rcases s.checkRates letter.sender with ⟨s, e | _⟩
  · exact s.fail_veiled e e rfl
  · dsimp only
    rw [show s.veiled.directory = s.directory from rfl]
    split
    · exact s.fail_veiled _ _ rfl
    · split
      · exact s.move_veiled _ _
      · rw [store_veiled, PairingStore.read_veiled]
        cases s.store.read fun edges => edges.owner? letter.sender with
        | error e => exact s.fail_veiled e e.veiled e.veiled_veiled
        | ok owner? => exact s.move_veiled _ _

theorem compareOwners_veiled (letter : Letter) (senderOwner : Option PrincipalId) :
    (s.veiled.compareOwners letter senderOwner).veiled =
      (s.compareOwners letter senderOwner).veiled := by
  unfold compareOwners
  rw [store_veiled, PairingStore.read_veiled]
  cases s.store.read fun edges => edges.owner? letter.recipient with
  | error e => exact s.fail_veiled e e.veiled e.veiled_veiled
  | ok owner? =>
    dsimp only [Except.mapError]
    split
    · exact s.move_veiled _ _
    · exact s.fail_veiled _ _ rfl

theorem enqueue_veiled (letter : Letter) :
    (s.veiled.enqueue letter).veiled = (s.enqueue letter).veiled := by
  unfold enqueue
  rw [show s.veiled.relay = s.relay from rfl, clock_veiled]
  rcases s.relay.publish letter.recipient (letter.message s.clock.wall) with ⟨relay, e | _⟩
  · exact fail_veiled { s with relay } _ _ rfl
  · exact tell_veiled
      { s with relay, metrics := { s.metrics with published := s.metrics.published + 1 } } _

theorem runConsumer?_veiled (party : Party) :
    (s.veiled.runConsumer? party).map Move.veiled = (s.runConsumer? party).map Move.veiled := by
  unfold runConsumer?
  rw [show s.veiled.relay = s.relay from rfl, clock_veiled]
  cases s.relay.run? s.clock.now party with
  | none => rfl
  | some r =>
    rcases r with ⟨relay, _ | consumed⟩
    · exact congrArg some (move_veiled { s with relay } _ _)
    · exact congrArg some (move_veiled { s with relay } _ _)

/-! ### Steps -/

theorem begin_veiled (party : Party) (call : Call) :
    (s.veiled.begin party call).veiled = (s.begin party call).veiled := by
  cases call with
  | pair id requester device => exact s.beginPair_veiled id requester device
  | poll device timeout => exact s.beginPoll_veiled party device timeout
  | respond device id accept => exact s.respond_veiled device id accept
  | owner device => exact s.ownerOf_veiled device
  | devices user => exact s.devicesOf_veiled user
  | unpair caller device => exact s.beginUnpair_veiled caller device
  | publish sender recipient kind correlationId data => exact s.beginPublish_veiled _
  | consume recipient timeout =>
    exact move_veiled { s with relay := s.relay.begin party recipient timeout false } _ _

/-- **The steps of a call differ in causes only.** -/
theorem step?_veiled (party : Party) (phase : Phase) :
    (s.veiled.step? party phase).map Move.veiled = (s.step? party phase).map Move.veiled := by
  cases phase with
  | begins call => exact congrArg some (s.begin_veiled party call)
  | sends id requester target => exact congrArg some (s.sendRequest_veiled id requester target)
  | awaits id device due => exact s.endWait?_veiled id device due
  | lists => exact s.endPoll?_veiled party
  | records id => exact s.endAccept?_veiled id
  | removes device => exact congrArg some (s.removePairing_veiled device)
  | compares letter senderOwner => exact congrArg some (s.compareOwners_veiled letter senderOwner)
  | queues letter => exact congrArg some (s.enqueue_veiled letter)
  | consumes => exact s.runConsumer?_veiled party

theorem runBackground?_veiled (b : Background) :
    s.veiled.runBackground? b = (s.runBackground? b).map veiled := by
  cases b with
  | timer id =>
    dsimp only [runBackground?]
    rw [pairing_veiled, clock_veiled, Coordinator.expire?_veiled, Option.map_map, Option.map_map]
    rfl
  | write id =>
    dsimp only [runBackground?]
    rw [pairing_veiled, store_veiled, clock_veiled, Coordinator.endWrite?_veiled, Option.map_map,
      Option.map_map]
    rfl

theorem abandon_veiled (party : Party) : s.veiled.abandon party = (s.abandon party).veiled := rfl

theorem nextDue?_veiled : s.veiled.nextDue? = s.nextDue? :=
  congrArg (fun due? : Option Nat => (due?.toList ++ s.relay.nextDue?.toList).min?)
    s.pairing.nextDue?_veiled

end Service
end DeviceRelay
