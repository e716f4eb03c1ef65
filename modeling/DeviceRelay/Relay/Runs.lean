/-
# Runs of the relay

Messages are published, consumers begin, run and are dropped, and time passes, in
any order. Every consumer that is not dropped ends in one event.

Key definitions: `Relay.Action`, `Relay.Event`, `Relay.State`, `Relay.State.step`,
`Relay.machine`.
-/
import DeviceRelay.Relay
import DeviceRelay.Schedule

namespace DeviceRelay
namespace Relay

/-- What can happen. -/
inductive Action (γ : Type) where
  | publish (recipient : PrincipalId) (m : Message)
  /-- Bytes are put into a queue by other means. -/
  | pushRaw (recipient : PrincipalId) (bytes : List UInt8)
  | consume (call : γ) (recipient : PrincipalId) (timeout : Nat) (skips : Bool)
  /-- A consumer runs that has something to do. -/
  | run (call : γ)
  /-- A consumer is dropped. -/
  | drop (call : γ)
  /-- Time passes. -/
  | tick (moment : Nat)

/-- What is seen of it. -/
inductive Event (γ : Type) where
  | stored (recipient : PrincipalId) (length dropped : Nat)
  | refused (cause : StorageError)
  | ended (call : γ) (consumed : Consumed)

/-- The relay at some moment. -/
structure State (γ : Type) where
  now : Nat := 0
  here : Relay γ

namespace State

variable {γ : Type} [DecidableEq γ]

/-- What an action does, if it is possible. -/
def step (s : State γ) : Action γ → Option (State γ × List (Event γ))
  | .publish recipient m =>
    match s.here.publish recipient m with
    | (here, .ok (length, dropped)) => some ({ s with here }, [.stored recipient length dropped])
    | (here, .error cause) => some ({ s with here }, [.refused cause])
  | .pushRaw recipient bytes =>
    let (here, length) := s.here.pushRaw recipient bytes
    some ({ s with here }, [.stored recipient length 0])
  | .consume call recipient timeout skips =>
    some ({ s with here := s.here.begin call recipient timeout skips }, [])
  | .run call =>
    (s.here.run? s.now call).map fun (here, consumed?) =>
      ({ s with here }, consumed?.toList.map (.ended call))
  | .drop call => some ({ s with here := s.here.abandon call }, [])
  | .tick moment => if s.now ≤ moment then some ({ s with now := moment }, []) else none

end State

/-- The runs of the relay. -/
def machine (γ : Type) [DecidableEq γ] : Machine (State γ) (Action γ) (Event γ) where
  step := State.step
  ready s := (s.here.ready? s.now).map .run
  nextDue s := s.here.nextDue?
  wait := .tick

end Relay
end DeviceRelay
