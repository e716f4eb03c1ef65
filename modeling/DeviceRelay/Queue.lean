/-
# An item goes to the pop that waited longest

Every key has a list of items. Items are added at the end and popped at the front.
A pop of an empty list waits in line until it is due. Each push to its key wakes it;
when it next runs, it looks once more, and joins the line again if others were
faster. As a push wakes everyone in the line, they keep their order. A list can be
cut to a range of places, or to make room on a push: then the oldest items go.

Key definitions: `Queues`, `Queues.push`, `Queues.trim`, `Queues.pushCapped`,
`Queues.beginPop`, `Queues.resume?`, `Queues.abandon`.
-/
import DeviceRelay.Clock
import DeviceRelay.Registry

namespace DeviceRelay

/-- A pop that waits. -/
structure Pop (κ γ : Type) where
  call : γ
  key : κ
  /-- When it gives up. -/
  due : Nat
  /-- Whether an item was pushed since it looked. -/
  woken : Bool
  deriving DecidableEq, Repr

/-- How a pop ends. -/
inductive Popped (α : Type) where
  | item (a : α)
  /-- Nothing came in time. -/
  | nothing
  /-- The clock cannot name the moment when to give up. -/
  | beyondClock
  deriving DecidableEq, Repr

/-- A list for every key that was touched, and the pops that wait, the longest first. -/
structure Queues (κ α γ : Type) where
  lists : List (κ × List α) := []
  pops : List (Pop κ γ) := []
  deriving Repr, Inhabited

namespace Queues

variable {κ α γ : Type} [DecidableEq κ] [DecidableEq γ]

def items (q : Queues κ α γ) (k : κ) : List α := (q.lists.lookup k).getD []

/-- The queues with other items for a key. -/
def setItems (q : Queues κ α γ) (k : κ) (items : List α) : Queues κ α γ :=
  { q with lists := Registry.put k items q.lists }

/-- Wakes the pops that wait for a key. -/
def wake (q : Queues κ α γ) (k : κ) : Queues κ α γ :=
  { q with pops := q.pops.map fun p => if p.key = k then { p with woken := true } else p }

/-! ### Pushing and trimming -/

/-- Adds an item. Tells how many there are then. -/
def push (q : Queues κ α γ) (k : κ) (a : α) : Queues κ α γ × Nat :=
  let items := q.items k ++ [a]
  ((q.setItems k items).wake k, items.length)

/-- What an index stands for in a list of the given length: one below zero counts from
the end. -/
def resolve (index length : Int) : Int := if index < 0 then length + index else index

/-- The items from the place `first` to the place `last`, both included. -/
def between (first last : Int) (items : List α) : List α :=
  let length : Int := items.length
  let first := max (resolve first length) 0
  let last := min (resolve last length) (length - 1)
  if last < first then [] else (items.take (last.toNat + 1)).drop first.toNat

/-- Keeps the items of a range of places. -/
def trim (q : Queues κ α γ) (k : κ) (first last : Int) : Queues κ α γ :=
  q.setItems k (between first last (q.items k))

/-- How many items are dropped of a list of the given length. -/
def excess (max drop length : Nat) : Nat := if max < length then min drop length else 0

/-- Adds an item. If there are more than `max` then, drops the `drop` oldest. Tells how
many are left and how many were dropped. -/
def pushCapped (q : Queues κ α γ) (k : κ) (a : α) (max drop : Nat) :
    Queues κ α γ × Nat × Nat :=
  let items := q.items k ++ [a]
  let dropped := excess max drop items.length
  let kept := items.drop dropped
  ((q.setItems k kept).wake k, kept.length, dropped)

/-! ### Popping -/

/-- Takes the oldest item, if there is one. -/
def take? (q : Queues κ α γ) (k : κ) : Option (Queues κ α γ × α) :=
  match q.items k with
  | [] => none
  | a :: rest => some (q.setItems k rest, a)

/-- Begins a pop. Tells its end if there is no need to wait. -/
def beginPop (q : Queues κ α γ) (now : Nat) (call : γ) (k : κ) (timeout : Nat) :
    Queues κ α γ × Option (Popped α) :=
  let touched := q.setItems k (q.items k)
  match deadline? now timeout with
  | none => (touched, some .beyondClock)
  | some due =>
    match touched.take? k with
    | some (q, a) => (q, some (.item a))
    | none => ({ touched with pops := touched.pops ++ [⟨call, k, due, false⟩] }, none)

/-- Drops a pop. -/
def abandon (q : Queues κ α γ) (call : γ) : Queues κ α γ :=
  { q with pops := q.pops.filter (·.call ≠ call) }

/-- Whether a pop has something to do. -/
def canRun (now : Nat) (p : Pop κ γ) : Bool := p.woken || p.due ≤ now

/-- Lets a pop run, if it has something to do. Tells its end, if it ends. -/
def resume? (q : Queues κ α γ) (now : Nat) (call : γ) :
    Option (Queues κ α γ × Option (Popped α)) := do
  let p ← q.pops.find? (·.call = call)
  if p.woken then
    match q.take? p.key with
    | some (q, a) => return (q.abandon call, some (.item a))
    | none =>
      let q := q.abandon call
      return ({ q with pops := q.pops ++ [{ p with woken := false }] }, none)
  else if p.due ≤ now then return (q.abandon call, some .nothing)
  else none

/-- The pop that runs next: of those with something to do the one that waited longest. -/
def ready? (q : Queues κ α γ) (now : Nat) : Option γ :=
  (q.pops.find? (canRun now)).map (·.call)

def nextDue? (q : Queues κ α γ) : Option Nat := (q.pops.map (·.due)).min?

end Queues
end DeviceRelay
