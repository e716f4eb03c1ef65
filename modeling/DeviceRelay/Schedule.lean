/-
# Runs of a machine in virtual time

A machine makes a step whenever an action is possible, and a run is a list of
actions. Which of several possible actions comes next is left open: statements
about a machine speak of all its runs. A schedule is one way to choose. It takes
what is ready before it lets time pass, and stops at each moment when something
falls due, so that every timer fires at its own time. Whatever a schedule does is a
run.

Key definitions: `Machine`, `Machine.run`, `Machine.Reaches`, `Machine.settle`,
`Machine.perform`, `Machine.advance`.
-/

namespace DeviceRelay

/-- Something that changes in steps and shows events. -/
structure Machine (σ α ε : Type) where
  /-- What an action does, if it is possible. -/
  step : σ → α → Option (σ × List ε)
  /-- An action that is possible without time passing. -/
  ready : σ → Option α
  /-- When the next timer is due. -/
  nextDue : σ → Option Nat
  /-- Time passes, up to the given moment. -/
  wait : Nat → α

namespace Machine

variable {σ α ε : Type}

/-- Does the actions in turn. -/
def run (m : Machine σ α ε) : σ → List α → Option (σ × List ε)
  | s, [] => some (s, [])
  | s, a :: rest => do
    let (s, events) ← m.step s a
    let (s, later) ← m.run s rest
    return (s, events ++ later)

/-- The states that runs lead to, with the actions and the events on the way. -/
inductive Reaches (m : Machine σ α ε) (start : σ) : σ → List α → List ε → Prop where
  | start : Reaches m start start [] []
  | step {s t : σ} {actions : List α} {a : α} {events later : List ε} :
    Reaches m start s actions events → m.step s a = some (t, later) →
    Reaches m start t (actions ++ [a]) (events ++ later)

/-- Takes what is ready, at most `fuel` times. -/
def settle (m : Machine σ α ε) : Nat → σ → σ × List ε
  | 0, s => (s, [])
  | fuel + 1, s =>
    match (m.ready s).bind (m.step s) with
    | none => (s, [])
    | some (s, events) =>
      let (s, later) := m.settle fuel s
      (s, events ++ later)

/-- Does actions in turn and then all that is ready. -/
def perform (m : Machine σ α ε) (fuel : Nat) (s : σ) (actions : List α) : Option (σ × List ε) :=
  (m.run s actions).map fun (s, events) =>
    let (s, later) := m.settle fuel s
    (s, events ++ later)

/-- Lets time pass up to `moment`, with at most `fuel` stops on the way. -/
def advance (m : Machine σ α ε) (settleFuel : Nat) : Nat → Nat → σ → σ × List ε
  | 0, _, s => (s, [])
  | fuel + 1, moment, s =>
    let stop := (m.nextDue s).filter (· < moment)
    match m.perform settleFuel s [m.wait (stop.getD moment)] with
    | none => (s, [])
    | some (s, events) =>
      if stop.isNone then (s, events)
      else
        let (s, later) := m.advance settleFuel fuel moment s
        (s, events ++ later)

end Machine
end DeviceRelay
