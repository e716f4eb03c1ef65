/-
# Whoever takes a request from the live ones settles it

A request is live from when it is sent until someone claims it: an accept, a
reject, its timer, or the shutdown. What claims it removes it from the live ones and
stops its timer, so it is claimed once. A reject settles it at once. An accept
begins to record the pairing, and the end of that settles it, whether or not anyone
still waits for it: it is accepted if the pairing was recorded, and rejected
otherwise.

Key definitions: `PairingRequest`, `Coordinator`, `Coordinator.send`,
`Coordinator.claim`, `Coordinator.beginAccept`, `Coordinator.endWrite?`,
`Coordinator.reject`, `Coordinator.expire?`, `Coordinator.shutDown`.
-/
import DeviceRelay.Pairing.State
import DeviceRelay.Pairing.Store
import DeviceRelay.Rendezvous

namespace DeviceRelay

/-- The wish of a user to own a device. -/
structure PairingRequest where
  id : RequestId
  requester : Principal
  target : Principal
  /-- Seconds since 1970. -/
  createdAt : Int
  deriving DecidableEq, Repr

/-- A request and its state when it was told. -/
structure Sighting where
  request : PairingRequest
  state : PairingState
  deriving DecidableEq, Repr

/-- The recording of an accepted pairing. -/
structure EdgeWrite where
  request : PairingRequest
  /-- When the store answers. -/
  due : Nat
  /-- How it ended. -/
  recording : Option Recording

/-- The live requests and their timers, the state of every request that was sent, and
the pairings that are being recorded. -/
structure Coordinator (γ : Type) where
  /-- How long a request lives, in milliseconds. -/
  ttl : Nat
  live : Rendezvous RequestId PairingRequest γ := {}
  states : List (RequestId × PairingState) := []
  timers : List (RequestId × Nat) := []
  writes : List EdgeWrite := []

namespace Coordinator

variable {γ : Type} [DecidableEq γ]

/-- The error of a request that is not live. -/
def notLive (id : RequestId) : Error := .notFound s!"pairing request {id}"

/-- The state of a request. One that was never sent counts as pending. -/
def stateOf (c : Coordinator γ) (id : RequestId) : PairingState :=
  (c.states.lookup id).getD .pending

/-- A request with its present state. -/
def sight (c : Coordinator γ) (request : PairingRequest) : Sighting :=
  ⟨request, c.stateOf request.id⟩

/-- Settles a request, unless it is settled. -/
def settle (c : Coordinator γ) (id : RequestId) (new : PairingState) : Coordinator γ :=
  { c with
    states := c.states.map fun (other, state) =>
      (other, if other = id then PairingState.settle new state else state) }

/-- Why a request may not be sent, if so. -/
def refusal? (c : Coordinator γ) (requester target : Principal) : Option Error :=
  if requester.isDevice then some (.invalidPairingTarget "requester must not be a device")
  else if !target.isDevice then
    some (.invalidPairingTarget s!"{target.username} is not a device")
  else if c.live.registry.closed then some .cancelled
  else none

/-- Sends a request, which starts its timer. -/
def send (c : Coordinator γ) (clock : Clock) (id : RequestId) (requester target : Principal) :
    Except Error (Coordinator γ × PairingRequest) :=
  match c.refusal? requester target with
  | some e => .error e
  | none =>
    let request := ⟨id, requester, target, clock.wall⟩
    .ok ({ c with
      live := c.live.set id request
      states := c.states ++ [(id, .pending)]
      timers := c.timers ++ [(id, timerDue clock.now c.ttl)] }, request)

/-- The live request with an identifier. -/
def get (c : Coordinator γ) (id : RequestId) : Except Error PairingRequest :=
  match c.live.registry.get? id with
  | some request => .ok request
  | none => .error (notLive id)

/-- Takes a request from the live ones and stops its timer. -/
def claim (c : Coordinator γ) (id : RequestId) : Except Error (Coordinator γ × PairingRequest) :=
  match c.live.registry.get? id with
  | some request =>
    .ok ({ c with
      live := c.live.remove id
      timers := c.timers.filter (·.1 ≠ id) }, request)
  | none => .error (notLive id)

/-- Claims a request and begins to record its pairing. -/
def beginAccept (c : Coordinator γ) (store : PairingStore) (now : Nat) (id : RequestId) :
    Except Error (Coordinator γ) :=
  match c.claim id with
  | .error e => .error e
  | .ok (c, request) => .ok { c with writes := c.writes ++ [⟨request, now + store.delay, none⟩] }

/-- Whether a pairing is still being recorded, and the store can answer. -/
def canEnd (now : Nat) (w : EdgeWrite) : Bool := w.recording.isNone && w.due ≤ now

def noteEnd (c : Coordinator γ) (id : RequestId) (recording : Recording) : Coordinator γ :=
  { c with
    writes := c.writes.map fun w =>
      if w.request.id = id then { w with recording := some recording } else w }

/-- The state in which the end of a recording leaves the request. -/
def stateAfter : Recording → PairingState
  | .recorded => .accepted
  | .refused _ | .brokenOff => .rejected

/-- Ends the recording of a pairing, which settles its request. -/
def endWrite? (c : Coordinator γ) (store : PairingStore) (now : Nat) (id : RequestId) :
    Option (Coordinator γ × PairingStore) := do
  let w ← c.writes.find? fun w => w.request.id = id && canEnd now w
  let (store, recording) := store.record w.request.requester.id w.request.target.id
  return ((c.noteEnd id recording).settle id (stateAfter recording), store)

/-- What an accept returns, once the pairing was recorded or not. -/
def accepted? (c : Coordinator γ) (id : RequestId) : Option (Except Error PairingRequest) := do
  let w ← c.writes.find? (·.request.id = id)
  match ← w.recording with
  | .recorded => return .ok w.request
  | .refused e => return .error e
  | .brokenOff => return .error .cancelled

/-- Claims a request and rejects it. -/
def reject (c : Coordinator γ) (id : RequestId) : Except Error (Coordinator γ × PairingRequest) :=
  match c.claim id with
  | .error e => .error e
  | .ok (c, request) => .ok (c.settle id .rejected, request)

/-- Fires the timer of a request, if it is due: the request is rejected if it is live. -/
def expire? (c : Coordinator γ) (now : Nat) (id : RequestId) : Option (Coordinator γ) := do
  let due ← c.timers.lookup id
  if due ≤ now then
    let c := { c with timers := c.timers.filter (·.1 ≠ id) }
    match c.reject id with
    | .ok (c, _) => return c
    | .error _ => return c
  else none

/-- Stops all timers, rejects what is live and lets nobody wait any longer. -/
def shutDown (c : Coordinator γ) : Coordinator γ :=
  let rejected := c.live.registry.values.foldl
    (fun c (id, _) => { c.settle id .rejected with live := c.live.remove id })
    { c with timers := [] }
  { rejected with live := rejected.live.close }

def liveCount (c : Coordinator γ) : Nat := c.live.registry.size

def isShutDown (c : Coordinator γ) : Bool := c.live.registry.closed

/-! ### Listings -/

/-- Whether a device is to hear of a request: it is asked for, and still pending. -/
def concerns (c : Coordinator γ) (target : PrincipalId) (request : PairingRequest) : Bool :=
  request.target.id = target && c.stateOf request.id = .pending

/-- Begins to list the live requests for a device, or the next one. Tells the outcome
if there is no need to wait. -/
def beginListing (c : Coordinator γ) (now : Nat) (call : γ) (target : PrincipalId) (timeout : Nat) :
    Coordinator γ × Option (Outcome (List PairingRequest)) :=
  let (live, outcome?) := c.live.beginListing now call (c.concerns target) (some timeout)
  ({ c with live }, outcome?)

/-- Lets a listing return, if it can. -/
def resumeListing? (c : Coordinator γ) (now : Nat) (call : γ) :
    Option (Coordinator γ × Outcome (List PairingRequest)) :=
  (c.live.resume? now call).map fun (live, outcome) =>
    ({ c with live }, outcome.map fun request => [request])

/-- What a listing returns: requests in the order of their creation, none if none came
in time. -/
def listed : Outcome (List PairingRequest) → Except Error (List PairingRequest)
  | .value requests => .ok (requests.mergeSort fun a b => a.createdAt ≤ b.createdAt)
  | .empty => .ok []
  | .cancelled => .error .cancelled

def abandon (c : Coordinator γ) (call : γ) : Coordinator γ := { c with live := c.live.abandon call }

/-! ### Time -/

/-- When the next timer fires, recording ends or listing gives up. -/
def nextDue? (c : Coordinator γ) : Option Nat :=
  let writes := c.writes.filterMap fun w => if w.recording.isNone then some w.due else none
  (c.timers.map (·.2) ++ writes ++ c.live.nextDue?.toList).min?

def description (c : Coordinator γ) : String :=
  s!"PairingCoordinator \x7b live: {c.live.registry.description}, " ++
    s!"ttl: {durationText c.ttl}, .. \x7d"

end Coordinator
end DeviceRelay
