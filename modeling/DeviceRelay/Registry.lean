/-
# A registry wakes exactly those who accept

A registry holds a value for some keys, and those who wait for one: for the next
value of a key, or of any key. Setting a value wakes, in the order in which they
came, first the waiters for its key and then the waiters for any key, each if it
accepts the value. Whoever does not accept it stays where it is. Removing a value
wakes nobody, and a closed registry has no waiters.

Key definitions: `Target`, `Waiter`, `Registry`, `Registry.set`, `Registry.remove`,
`Registry.register`, `Registry.withdraw`, `Registry.close`.
-/

namespace DeviceRelay

/-- What a waiter waits for. -/
inductive Target (κ : Type) where
  /-- The next value of a key. -/
  | key (k : κ)
  /-- The next value of any key. -/
  | any
  deriving DecidableEq, Repr

/-- One who waits, known by a ticket. -/
structure Waiter (ν : Type) where
  ticket : Nat
  accepts : ν → Bool

/-- Values by key, and the waiters in the order in which they came. -/
structure Registry (κ ν : Type) where
  values : List (κ × ν) := []
  keyed : List (κ × List (Waiter ν)) := []
  global : List (Waiter ν) := []
  nextTicket : Nat := 0
  closed : Bool := false

namespace Registry

variable {κ ν : Type} [DecidableEq κ]

/-- Puts an entry in the place of the one with its key, or at the end. -/
def put {β : Type} (k : κ) (b : β) : List (κ × β) → List (κ × β)
  | [] => [(k, b)]
  | (other, old) :: rest => if k = other then (k, b) :: rest else (other, old) :: put k b rest

def waitersOf (r : Registry κ ν) (k : κ) : List (Waiter ν) := (r.keyed.lookup k).getD []

/-- The registry with other waiters for a key. A key without waiters is forgotten. -/
def setWaitersOf (r : Registry κ ν) (k : κ) (waiters : List (Waiter ν)) : Registry κ ν :=
  if waiters.isEmpty then { r with keyed := r.keyed.filter (·.1 ≠ k) }
  else { r with keyed := put k waiters r.keyed }

def waiters (r : Registry κ ν) : Target κ → List (Waiter ν)
  | .key k => r.waitersOf k
  | .any => r.global

/-- How many waiters a target has. -/
def waiterCount (r : Registry κ ν) (target : Target κ) : Nat := (r.waiters target).length

/-- The registry with other waiters for a target. -/
def setWaiters (r : Registry κ ν) (target : Target κ) (waiters : List (Waiter ν)) :
    Registry κ ν :=
  match target with
  | .key k => r.setWaitersOf k waiters
  | .any => { r with global := waiters }

/-- The tickets of the waiters that accept a value. -/
def accepting (v : ν) (waiters : List (Waiter ν)) : List Nat :=
  (waiters.filter (·.accepts v)).map (·.ticket)

/-- The waiters that do not accept a value. -/
def declining (v : ν) (waiters : List (Waiter ν)) : List (Waiter ν) :=
  waiters.filter fun w => !w.accepts v

/-- Stores a value. Tells whom it wakes, in order. -/
def set (r : Registry κ ν) (k : κ) (v : ν) : Registry κ ν × List Nat :=
  let woken := accepting v (r.waitersOf k) ++ accepting v r.global
  let stored := { r with values := put k v r.values, global := declining v r.global }
  (stored.setWaitersOf k (declining v (r.waitersOf k)), woken)

def get? (r : Registry κ ν) (k : κ) : Option ν := r.values.lookup k

/-- Forgets the value of a key. -/
def remove (r : Registry κ ν) (k : κ) : Registry κ ν :=
  { r with values := r.values.filter (·.1 ≠ k) }

def valuesMatching (r : Registry κ ν) (accepts : ν → Bool) : List ν :=
  (r.values.map (·.2)).filter accepts

def size (r : Registry κ ν) : Nat := r.values.length

/-- Adds a waiter at the end of its line. Tells its ticket. -/
def register (r : Registry κ ν) (target : Target κ) (accepts : ν → Bool) : Registry κ ν × Nat :=
  let waiter : Waiter ν := ⟨r.nextTicket, accepts⟩
  let next := { r with nextTicket := r.nextTicket + 1 }
  (next.setWaiters target (r.waiters target ++ [waiter]), r.nextTicket)

/-- Removes a waiter, if it still waits. -/
def withdraw (r : Registry κ ν) (target : Target κ) (ticket : Nat) : Registry κ ν :=
  r.setWaiters target ((r.waiters target).filter (·.ticket ≠ ticket))

/-- Closes the registry and drops its waiters. The values stay. -/
def close (r : Registry κ ν) : Registry κ ν := { r with keyed := [], global := [], closed := true }

def description (r : Registry κ ν) : String :=
  let keyed := (r.keyed.flatMap (·.2)).length
  s!"WaitableRegistry \x7b values: {r.size}, keyed_waiters: {keyed}, " ++
    s!"global_waiters: {r.global.length}, closed: {r.closed} \x7d"

end Registry
end DeviceRelay
