/-
# Runs of the queues

Items are pushed, lists are trimmed, pops begin, run and are dropped, and time
passes, in any order. Every pop that is not dropped ends in one event, and every
push tells in one how many items there are and how many were dropped.

Key definitions: `Queues.Action`, `Queues.Event`, `Queues.State`, `Queues.State.step`,
`Queues.machine`.
-/
import DeviceRelay.Queue
import DeviceRelay.Schedule

namespace DeviceRelay
namespace Queues

/-- What can happen. -/
inductive Action (κ α γ : Type) where
  | push (k : κ) (a : α)
  | pushCapped (k : κ) (a : α) (max drop : Nat)
  | trim (k : κ) (first last : Int)
  | pop (call : γ) (k : κ) (timeout : Nat)
  /-- A pop runs that has something to do. -/
  | resume (call : γ)
  /-- A pop is dropped. -/
  | drop (call : γ)
  /-- Time passes. -/
  | tick (moment : Nat)

/-- What is seen of it. -/
inductive Event (κ α γ : Type) where
  | stored (k : κ) (length dropped : Nat)
  | ended (call : γ) (popped : Popped α)
  deriving DecidableEq, Repr

/-- The queues at some moment. -/
structure State (κ α γ : Type) where
  now : Nat := 0
  here : Queues κ α γ := {}
  deriving Repr

namespace State

variable {κ α γ : Type} [DecidableEq κ] [DecidableEq γ]

/-- The state after a pop ran, with its end if it ended. -/
def ran (s : State κ α γ) (call : γ) :
    Queues κ α γ × Option (Popped α) → State κ α γ × List (Event κ α γ)
  | (here, popped?) => ({ s with here }, popped?.toList.map (.ended call))

/-- What an action does, if it is possible. -/
def step (s : State κ α γ) : Action κ α γ → Option (State κ α γ × List (Event κ α γ))
  | .push k a =>
    let (here, length) := s.here.push k a
    some ({ s with here }, [.stored k length 0])
  | .pushCapped k a max drop =>
    let (here, length, dropped) := s.here.pushCapped k a max drop
    some ({ s with here }, [.stored k length dropped])
  | .trim k first last => some ({ s with here := s.here.trim k first last }, [])
  | .pop call k timeout => some (s.ran call (s.here.beginPop s.now call k timeout))
  | .resume call => (s.here.resume? s.now call).map (s.ran call)
  | .drop call => some ({ s with here := s.here.abandon call }, [])
  | .tick moment => if s.now ≤ moment then some ({ s with now := moment }, []) else none

end State

/-- The runs of the queues. -/
def machine (κ α γ : Type) [DecidableEq κ] [DecidableEq γ] :
    Machine (State κ α γ) (Action κ α γ) (Event κ α γ) where
  step := State.step
  ready s := (s.here.ready? s.now).map .resume
  nextDue s := s.here.nextDue?
  wait := .tick

end Queues
end DeviceRelay
