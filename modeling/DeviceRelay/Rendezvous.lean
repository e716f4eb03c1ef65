/-
# Waiting for a value

A call waits at a registry for a value that it accepts: the value of a key that is
already there, or else the next one. A listing asks for all values that are there,
or else for the next one of any key. A call that has to wait leaves a waiter in the
registry. Its reply is fixed when a value is set or the registry is closed, and it
returns when it next runs; a call without a reply returns empty once it is due. A
call that is dropped takes its waiter away.

Key definitions: `Outcome`, `Wait`, `Rendezvous`, `Rendezvous.begin`,
`Rendezvous.beginListing`, `Rendezvous.set`, `Rendezvous.resume?`, `Rendezvous.abandon`,
`Rendezvous.close`, `Rendezvous.machine`.
-/
import DeviceRelay.Clock
import DeviceRelay.Error
import DeviceRelay.Registry
import DeviceRelay.Schedule

namespace DeviceRelay

/-- How a wait ends. -/
inductive Outcome (α : Type) where
  | value (a : α)
  /-- Nothing came in time. -/
  | empty
  /-- The registry was closed. -/
  | cancelled
  deriving DecidableEq, Repr

namespace Outcome

variable {α β : Type}

/-- The outcome with another value. -/
def map (f : α → β) : Outcome α → Outcome β
  | .value a => .value (f a)
  | .empty => .empty
  | .cancelled => .cancelled

def value? : Outcome α → Option α
  | .value a => some a
  | _ => none

/-- The value, or the error that the lack of one is. -/
def toResult : Outcome α → Except Error α
  | .value a => .ok a
  | .empty => .error .timeout
  | .cancelled => .error .cancelled

end Outcome

/-- A call that waits. -/
structure Wait (κ γ : Type) where
  call : γ
  ticket : Nat
  target : Target κ
  /-- When it gives up. -/
  due : Option Nat
  deriving DecidableEq, Repr

/-- A registry, the calls that wait at it, and the replies to those that wait no more
but did not return yet, in the order in which they were given. -/
structure Rendezvous (κ ν γ : Type) where
  registry : Registry κ ν := {}
  waits : List (Wait κ γ) := []
  replies : List (γ × Outcome ν) := []

namespace Rendezvous

variable {κ ν γ : Type} [DecidableEq κ] [DecidableEq γ]

def enlist (r : Rendezvous κ ν γ) (now : Nat) (call : γ) (target : Target κ) (accepts : ν → Bool)
    (timeout : Option Nat) : Rendezvous κ ν γ :=
  let (registry, ticket) := r.registry.register target accepts
  { r with registry, waits := r.waits ++ [⟨call, ticket, target, timeout.map (timerDue now)⟩] }

/-- The value that a target has at once, if it is accepted. -/
def current? (r : Rendezvous κ ν γ) (target : Target κ) (accepts : ν → Bool) : Option ν :=
  match target with
  | .key k => (r.registry.get? k).filter accepts
  | .any => none

/-- Begins to wait for one value. Tells the outcome if there is no need to wait. -/
def begin (r : Rendezvous κ ν γ) (now : Nat) (call : γ) (target : Target κ) (accepts : ν → Bool)
    (timeout : Option Nat) : Rendezvous κ ν γ × Option (Outcome ν) :=
  if r.registry.closed then (r, some .cancelled)
  else
    match r.current? target accepts with
    | some v => (r, some (.value v))
    | none => (r.enlist now call target accepts timeout, none)

/-- Begins to wait for all values or the next one. Tells the outcome if there is no
need to wait. -/
def beginListing (r : Rendezvous κ ν γ) (now : Nat) (call : γ) (accepts : ν → Bool)
    (timeout : Option Nat) : Rendezvous κ ν γ × Option (Outcome (List ν)) :=
  if r.registry.closed then (r, some .cancelled)
  else
    match r.registry.valuesMatching accepts with
    | [] => (r.enlist now call .any accepts timeout, none)
    | values => (r, some (.value values))

/-- Stores a value, which is the reply to those it wakes. -/
def set (r : Rendezvous κ ν γ) (k : κ) (v : ν) : Rendezvous κ ν γ :=
  let (registry, woken) := r.registry.set k v
  let callOf := fun ticket => (r.waits.find? (·.ticket = ticket)).map (·.call)
  { registry
    waits := r.waits.filter (·.ticket ∉ woken)
    replies := r.replies ++ (woken.filterMap callOf).map fun call => (call, .value v) }

def remove (r : Rendezvous κ ν γ) (k : κ) : Rendezvous κ ν γ :=
  { r with registry := r.registry.remove k }

/-- Closes the registry, which cancels those that wait. -/
def close (r : Rendezvous κ ν γ) : Rendezvous κ ν γ :=
  { registry := r.registry.close
    waits := []
    replies := r.replies ++ r.waits.map fun w => (w.call, .cancelled) }

/-- Drops a call, its waiter and its reply. -/
def abandon (r : Rendezvous κ ν γ) (call : γ) : Rendezvous κ ν γ :=
  { registry := (r.waits.filter (·.call = call)).foldl
      (fun registry w => registry.withdraw w.target w.ticket) r.registry
    waits := r.waits.filter (·.call ≠ call)
    replies := r.replies.filter (·.1 ≠ call) }

/-- Whether a wait is over without a reply. -/
def isOver (now : Nat) (w : Wait κ γ) : Bool := w.due.any (· ≤ now)

/-- What a call returns if it runs now. -/
def outcome? (r : Rendezvous κ ν γ) (now : Nat) (call : γ) : Option (Outcome ν) :=
  match r.replies.lookup call with
  | some reply => some reply
  | none => if r.waits.any fun w => w.call = call && isOver now w then some .empty else none

/-- Lets a call return, if it can. -/
def resume? (r : Rendezvous κ ν γ) (now : Nat) (call : γ) :
    Option (Rendezvous κ ν γ × Outcome ν) :=
  (r.outcome? now call).map fun outcome => (r.abandon call, outcome)

/-- The first call that can return: one with a reply goes before one that gives up. -/
def ready? (r : Rendezvous κ ν γ) (now : Nat) : Option γ :=
  match r.replies with
  | (call, _) :: _ => some call
  | [] => (r.waits.find? (isOver now)).map (·.call)

def nextDue? (r : Rendezvous κ ν γ) : Option Nat := (r.waits.filterMap (·.due)).min?

end Rendezvous
end DeviceRelay
