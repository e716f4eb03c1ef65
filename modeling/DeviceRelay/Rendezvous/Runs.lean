/-
# Runs of a registry with waiting calls

Values are set and removed, calls begin, return and are dropped, the registry is
closed and time passes, in any order. Every call that is not dropped ends in one
event. A call for one value reports it as a list of one.

Key definitions: `Rendezvous.Action`, `Rendezvous.Event`, `Rendezvous.State`,
`Rendezvous.State.step`, `Rendezvous.machine`.
-/
import DeviceRelay.Rendezvous

namespace DeviceRelay
namespace Rendezvous

/-- What can happen. -/
inductive Action (κ ν γ : Type) where
  | set (k : κ) (v : ν)
  | remove (k : κ)
  /-- A call begins to wait for one value. -/
  | wait (call : γ) (target : Target κ) (accepts : ν → Bool) (timeout : Option Nat)
  /-- A call begins to wait for all values or the next one. -/
  | list (call : γ) (accepts : ν → Bool) (timeout : Option Nat)
  | close
  /-- A call runs that can return. -/
  | resume (call : γ)
  /-- A call is dropped. -/
  | drop (call : γ)
  /-- Time passes. -/
  | tick (moment : Nat)

/-- The end of a call. -/
structure Event (ν γ : Type) where
  call : γ
  outcome : Outcome (List ν)
  deriving DecidableEq, Repr

/-- A registry with waiting calls at some moment. -/
structure State (κ ν γ : Type) where
  now : Nat := 0
  here : Rendezvous κ ν γ := {}

namespace State

variable {κ ν γ : Type} [DecidableEq κ] [DecidableEq γ]

/-- The state after a call began, with the end of the call if it need not wait. -/
def begun (s : State κ ν γ) (call : γ) :
    Rendezvous κ ν γ × Option (Outcome (List ν)) → State κ ν γ × List (Event ν γ)
  | (here, outcome?) => ({ s with here }, outcome?.toList.map fun outcome => ⟨call, outcome⟩)

/-- What an action does, if it is possible. -/
def step (s : State κ ν γ) : Action κ ν γ → Option (State κ ν γ × List (Event ν γ))
  | .set k v => some ({ s with here := s.here.set k v }, [])
  | .remove k => some ({ s with here := s.here.remove k }, [])
  | .wait call target accepts timeout =>
    let (here, outcome?) := s.here.begin s.now call target accepts timeout
    some (s.begun call (here, outcome?.map (Outcome.map fun v => [v])))
  | .list call accepts timeout =>
    some (s.begun call (s.here.beginListing s.now call accepts timeout))
  | .close => some ({ s with here := s.here.close }, [])
  | .resume call =>
    (s.here.resume? s.now call).map fun (here, outcome) =>
      ({ s with here }, [⟨call, outcome.map fun v => [v]⟩])
  | .drop call => some ({ s with here := s.here.abandon call }, [])
  | .tick moment => if s.now ≤ moment then some ({ s with now := moment }, []) else none

end State

/-- The runs of a registry. Calls return in the order of their replies. -/
def machine (κ ν γ : Type) [DecidableEq κ] [DecidableEq γ] :
    Machine (State κ ν γ) (Action κ ν γ) (Event ν γ) where
  step := State.step
  ready s := (s.here.ready? s.now).map .resume
  nextDue s := s.here.nextDue?
  wait := .tick

end Rendezvous
end DeviceRelay
