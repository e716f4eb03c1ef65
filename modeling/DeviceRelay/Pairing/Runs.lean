/-
# Runs of the coordinator

Requests are sent, looked up, accepted, rejected and listed, calls are dropped, the store
changes its behaviour, the coordinator is shut down and time passes, in any order.
What goes on by itself are tasks: the timer of a request, the recording of a
pairing, and a call that waits. A schedule runs the oldest task that can run.

Key definitions: `Coordinator.Action`, `Coordinator.Event`, `Coordinator.State`,
`Coordinator.State.step`, `Coordinator.machine`.
-/
import DeviceRelay.Pairing.Coordinator

namespace DeviceRelay
namespace Coordinator

/-- What a call waits for. -/
inductive Waiting where
  /-- For the end of the recording that an accept began. -/
  | recording (id : RequestId)
  | listing
  /-- For a request to be settled, until the given moment. -/
  | settling (id : RequestId) (due : Nat)
  deriving DecidableEq, Repr

/-- What goes on by itself. -/
inductive Task (γ : Type) where
  | timer (id : RequestId)
  | write (id : RequestId)
  | call (call : γ)
  deriving DecidableEq, Repr

/-- What can happen. -/
inductive Action (γ : Type) where
  | send (id : RequestId) (requester target : Principal)
  | accept (call : γ) (id : RequestId)
  | reject (id : RequestId)
  /-- The live request with an identifier is looked up. -/
  | get (id : RequestId)
  | list (call : γ) (target : PrincipalId) (timeout : Nat)
  /-- A call begins to wait for a request to be settled. -/
  | watch (call : γ) (id : RequestId) (timeout : Nat)
  | run (task : Task γ)
  /-- A call is dropped. -/
  | drop (call : γ)
  | shutDown
  /-- The store changes its behaviour. -/
  | setStore (delay : Nat) (fault : Option StoreFault)
  /-- A pairing is made by other means. -/
  | link (user device : PrincipalId)
  /-- A pairing is undone by other means. -/
  | unlink (device : PrincipalId)
  /-- Time passes. -/
  | tick (moment : Nat)

/-- What is seen of it. -/
inductive Event (γ : Type) where
  | sent (result : Except Error Sighting)
  | rejected (result : Except Error Sighting)
  | got (result : Except Error Sighting)
  | accepted (call : γ) (result : Except Error Sighting)
  | listed (call : γ) (result : Except Error (List Sighting))
  | watched (call : γ) (state : PairingState)
  | linked (result : Except Error Unit)

/-- The coordinator with its store, the calls that wait, and the tasks from the oldest
to the latest. -/
structure State (γ : Type) where
  clock : Clock := {}
  store : PairingStore := {}
  here : Coordinator γ
  waiting : List (γ × Waiting) := []
  tasks : List (Task γ) := []

namespace State

variable {γ : Type} [DecidableEq γ]

/-- The state after a call began to wait. -/
def suspend (s : State γ) (call : γ) (waiting : Waiting) : State γ :=
  { s with waiting := s.waiting ++ [(call, waiting)], tasks := s.tasks ++ [.call call] }

/-- The state after a call returned or was dropped. -/
def finish (s : State γ) (call : γ) : State γ :=
  { s with
    waiting := s.waiting.filter (·.1 ≠ call)
    tasks := s.tasks.filter (· ≠ .call call) }

/-- What follows from a listing's outcome. -/
def listedEvent (s : State γ) (call : γ) (outcome : Outcome (List PairingRequest)) : Event γ :=
  .listed call ((Coordinator.listed outcome).map fun requests => requests.map s.here.sight)

/-- Lets a call run, if it can return. -/
def runCall? (s : State γ) (call : γ) : Option (State γ × List (Event γ)) := do
  match ← s.waiting.lookup call with
  | .recording id =>
    let result ← s.here.accepted? id
    return (s.finish call, [.accepted call (result.map s.here.sight)])
  | .listing =>
    let (here, outcome) ← s.here.resumeListing? s.clock.now call
    return ({ s with here }.finish call, [s.listedEvent call outcome])
  | .settling id due =>
    let state := s.here.stateOf id
    if state ≠ .pending ∨ due ≤ s.clock.now then
      return (s.finish call, [.watched call state])
    else none

def runTask? (s : State γ) : Task γ → Option (State γ × List (Event γ))
  | .timer id =>
    (s.here.expire? s.clock.now id).map fun here =>
      ({ s with here, tasks := s.tasks.filter (· ≠ .timer id) }, [])
  | .write id =>
    (s.here.endWrite? s.store s.clock.now id).map fun (here, store) =>
      ({ s with here, store, tasks := s.tasks.filter (· ≠ .write id) }, [])
  | .call call => s.runCall? call

/-- What an action does, if it is possible. A request is sent under a new identifier. -/
def step (s : State γ) : Action γ → Option (State γ × List (Event γ))
  | .send id requester target =>
    if (s.here.states.lookup id).isSome then none
    else
      match s.here.send s.clock id requester target with
      | .error e => some (s, [.sent (.error e)])
      | .ok (here, request) =>
        let s := { s with here, tasks := s.tasks ++ [.timer id] }
        some (s, [.sent (.ok (s.here.sight request))])
  | .accept call id =>
    match s.here.beginAccept s.store s.clock.now id with
    | .error e => some (s, [.accepted call (.error e)])
    | .ok here =>
      let s := { s with here }.suspend call (.recording id)
      some ({ s with tasks := s.tasks ++ [.write id] }, [])
  | .reject id =>
    match s.here.reject id with
    | .error e => some (s, [.rejected (.error e)])
    | .ok (here, request) =>
      let s := { s with here }
      some (s, [.rejected (.ok (s.here.sight request))])
  | .get id => some (s, [.got ((s.here.get id).map s.here.sight)])
  | .list call target timeout =>
    match s.here.beginListing s.clock.now call target timeout with
    | (here, some outcome) => some ({ s with here }, [s.listedEvent call outcome])
    | (here, none) => some ({ s with here }.suspend call .listing, [])
  | .watch call id timeout =>
    some (s.suspend call (.settling id (timerDue s.clock.now timeout)), [])
  | .run task => s.runTask? task
  | .drop call => some ({ s with here := s.here.abandon call }.finish call, [])
  | .shutDown => some ({ s with here := s.here.shutDown }, [])
  | .setStore delay fault => some ({ s with store := { s.store with delay, fault } }, [])
  | .link user device =>
    match s.store.edges.create? user device with
    | some edges => some ({ s with store := { s.store with edges } }, [.linked (.ok ())])
    | none => some (s, [.linked (.error (.alreadyPaired device))])
  | .unlink device =>
    some ({ s with store := { s.store with edges := (s.store.edges.remove device).1 } }, [])
  | .tick moment =>
    if s.clock.now ≤ moment then some ({ s with clock := { s.clock with now := moment } }, [])
    else none

def nextDue? (s : State γ) : Option Nat :=
  let watches := s.waiting.filterMap fun (_, waiting) =>
    match waiting with
    | .settling _ due => some due
    | _ => none
  (watches ++ s.here.nextDue?.toList).min?

end State

/-- The runs of a coordinator. -/
def machine (γ : Type) [DecidableEq γ] : Machine (State γ) (Action γ) (Event γ) where
  step := State.step
  ready s := (s.tasks.find? fun task => (s.runTask? task).isSome).map .run
  nextDue := State.nextDue?
  wait := .tick

end Coordinator
end DeviceRelay
