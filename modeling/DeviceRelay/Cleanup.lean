/-
# Clearing the senders from time to time

The cleanup clears the senders whose buckets are full once every period, and never
stops by itself. A period of zero is none: such a cleanup ends at once.

Key definitions: `Cleanup`, `Cleanup.start`, `Cleanup.runDue?`, `Cleanup.machine`.
-/
import DeviceRelay.RateLimits
import DeviceRelay.Schedule

namespace DeviceRelay

/-- A task that clears the senders. -/
inductive Cleanup where
  /-- It clears next at the given moment. -/
  | running (every next : Nat)
  | ended
  deriving DecidableEq, Repr

namespace Cleanup

/-- A cleanup that begins now. -/
def start (now every : Nat) : Cleanup := if every = 0 then .ended else .running every (now + every)

def nextDue? : Cleanup → Option Nat
  | .running _ next => some next
  | .ended => none

/-- Clears if it is time to. -/
def runDue? (now : Nat) (limits : RateLimits) : Cleanup → Option (Cleanup × RateLimits)
  | .running every next =>
    if next ≤ now then some (.running every (next + every), limits.clear) else none
  | .ended => none

/-! ### Runs -/

/-- The limits and their cleanup at some moment. -/
structure State where
  now : Nat := 0
  limits : RateLimits
  cleanup : Option Cleanup := none
  deriving Repr

/-- What can happen. -/
inductive Action where
  | checkSender (sender : PrincipalId)
  | checkGlobal
  /-- Cells come back. -/
  | refill (common : Nat) (own : PrincipalId → Nat)
  | clear
  /-- A cleanup begins. -/
  | start (every : Nat)
  /-- The cleanup is stopped. -/
  | stop
  /-- The cleanup runs. -/
  | run
  /-- Time passes. -/
  | tick (moment : Nat)

abbrev Event := Except RateLimitError Unit

/-- What an action does, if it is possible. -/
def step (s : State) : Action → Option (State × List Event)
  | .checkSender sender =>
    let (limits, result) := s.limits.checkSender sender
    some ({ s with limits }, [result])
  | .checkGlobal =>
    let (limits, result) := s.limits.checkGlobal
    some ({ s with limits }, [result])
  | .refill common own => some ({ s with limits := s.limits.refill common own }, [])
  | .clear => some ({ s with limits := s.limits.clear }, [])
  | .start every => some ({ s with cleanup := some (.start s.now every) }, [])
  | .stop => some ({ s with cleanup := none }, [])
  | .run =>
    (s.cleanup.bind (runDue? s.now s.limits)).map fun (cleanup, limits) =>
      ({ s with limits, cleanup := some cleanup }, [])
  | .tick moment => if s.now ≤ moment then some ({ s with now := moment }, []) else none

/-- The runs of limits and their cleanup. -/
def machine : Machine State Action Event where
  step := step
  ready s := (s.cleanup.bind (runDue? s.now s.limits)).map fun _ => .run
  nextDue s := s.cleanup.bind nextDue?
  wait := .tick

end Cleanup
end DeviceRelay
