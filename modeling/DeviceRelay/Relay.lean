/-
# Messages wait in the queue of their recipient

Each recipient has a queue of packed messages, under a name that holds its number,
with an upper bound. A message that would take a queue beyond its bound drops the
oldest ones, a fixed number at once. To consume is to pop and unpack. A consumer that
skips passes over entries that are no messages and starts to wait afresh after each;
any other reports them.

Key definitions: `Relay`, `queueName`, `Relay.publish`, `Relay.begin`, `Relay.run?`,
`Relay.abandon`, `Consumed`.
-/
import DeviceRelay.Config
import DeviceRelay.Message
import DeviceRelay.Queue

namespace DeviceRelay

/-- The name of a recipient's queue. -/
def queueName (recipient : PrincipalId) : String := s!"relay:queue:{recipient}"

/-- One who consumes. -/
structure Consumer (γ : Type) where
  call : γ
  recipient : PrincipalId
  timeout : Nat
  /-- Whether entries that are no messages are passed over. -/
  skips : Bool
  /-- Whether it waits in the queue, or is about to pop. -/
  waits : Bool
  deriving DecidableEq, Repr

/-- How consuming ends. -/
inductive Consumed where
  | message (m : Message)
  /-- Nothing came in time. -/
  | nothing
  /-- The entry is no message. -/
  | undecodable
  | failed (cause : StorageError)
  /-- The clock cannot name the moment when to give up. -/
  | beyondClock

/-- The queues of all recipients, with their bound and the number dropped at once, and
those who consume. -/
structure Relay (γ : Type) where
  maxSize : Nat
  overflowBuffer : Nat
  queues : Queues String (List UInt8) γ := {}
  consumers : List (Consumer γ) := []
  /-- Why the queues cannot be used at present, if so. -/
  fault : Option StorageError := none

namespace Relay

variable {γ : Type} [DecidableEq γ]

/-- Empty queues with the bounds of a configuration. -/
def ofConfig (config : RelayConfig) : Relay γ :=
  { maxSize := config.maxQueueSize, overflowBuffer := config.overflowBuffer }

/-- How many entries wait for a recipient. -/
def pending (r : Relay γ) (recipient : PrincipalId) : Nat := (r.queues.items (queueName recipient)).length

/-- Adds a message to the queue of a recipient. Tells how many are there then and how
many were dropped. -/
def publish (r : Relay γ) (recipient : PrincipalId) (m : Message) :
    Relay γ × Except StorageError (Nat × Nat) :=
  match r.fault with
  | some cause => (r, .error cause)
  | none =>
    let (queues, length, dropped) :=
      r.queues.pushCapped (queueName recipient) m.pack r.maxSize r.overflowBuffer
    ({ r with queues }, .ok (length, dropped))

/-- Adds bytes to the queue of a recipient, past its bound. Tells how many entries are
there then. -/
def pushRaw (r : Relay γ) (recipient : PrincipalId) (bytes : List UInt8) : Relay γ × Nat :=
  let (queues, length) := r.queues.push (queueName recipient) bytes
  ({ r with queues }, length)

/-- Begins to consume. -/
def begin (r : Relay γ) (call : γ) (recipient : PrincipalId) (timeout : Nat) (skips : Bool) :
    Relay γ :=
  { r with consumers := r.consumers ++ [⟨call, recipient, timeout, skips, false⟩] }

/-- Stops to consume. What is queued stays there. -/
def abandon (r : Relay γ) (call : γ) : Relay γ :=
  { r with
    queues := r.queues.abandon call
    consumers := r.consumers.filter (·.call ≠ call) }

/-- Notes whether a consumer waits. -/
def setWaits (r : Relay γ) (call : γ) (waits : Bool) : Relay γ :=
  { r with
    consumers := r.consumers.map fun c => if c.call = call then { c with waits } else c }

/-- What follows from the end of a pop. -/
def finish (r : Relay γ) (c : Consumer γ) : Popped (List UInt8) → Relay γ × Option Consumed
  | .item bytes =>
    match Message.unpack? bytes with
    | some m => (r.abandon c.call, some (.message m))
    | none =>
      if c.skips then (r.setWaits c.call false, none)
      else (r.abandon c.call, some .undecodable)
  | .nothing => (r.abandon c.call, some .nothing)
  | .beyondClock => (r.abandon c.call, some .beyondClock)

/-- Lets a consumer run, if it has something to do. Tells its end, if it ends. -/
def run? (r : Relay γ) (now : Nat) (call : γ) : Option (Relay γ × Option Consumed) := do
  let c ← r.consumers.find? (·.call = call)
  if c.waits then
    match ← r.queues.resume? now call with
    | (queues, some popped) => return { r with queues }.finish c popped
    | (queues, none) => return ({ r with queues }, none)
  else
    match r.fault with
    | some cause => return (r.abandon call, some (.failed cause))
    | none =>
      match r.queues.beginPop now call (queueName c.recipient) c.timeout with
      | (queues, some popped) => return { r with queues }.finish c popped
      | (queues, none) => return ({ r with queues }.setWaits call true, none)

/-- Who runs next: one who is about to pop, or else the first in line who can. -/
def ready? (r : Relay γ) (now : Nat) : Option γ :=
  match r.consumers.find? (!·.waits) with
  | some c => some c.call
  | none => r.queues.ready? now

/-- When the next consumer gives up. -/
def nextDue? (r : Relay γ) : Option Nat := r.queues.nextDue?

def description (r : Relay γ) : String :=
  s!"MessageRelay \x7b max_size: {r.maxSize}, overflow_buffer: {r.overflowBuffer}, .. \x7d"

def consumerDescription (r : Relay γ) (recipient : PrincipalId) (timeout : Nat) : String :=
  s!"RelayConsumer \x7b relay: {r.description}, recipient: {recipient.description}, " ++
    s!"timeout: {durationText timeout} \x7d"

end Relay
end DeviceRelay
