/-
# Full buckets that messages are taken from

Publishing takes a cell from the common bucket and one from the bucket of the
sender. A bucket is full at first, with as many cells as its rate allows, and cells
come back to it with time, by a clock of its own: when, and how many, is not said
here, but never more than the bucket holds. A sender is known from its first message
on, refused or not, until a clearing finds its bucket full.

Key definitions: `RateLimits`, `RateLimits.ofConfig`, `RateLimits.checkGlobal`,
`RateLimits.checkSender`, `RateLimits.takeCells`, `RateLimits.refill`,
`RateLimits.clear`.
-/
import DeviceRelay.Config

namespace DeviceRelay

/-- Which rate was exceeded. -/
inductive RateLimitError where
  | sender
  | global
  deriving DecidableEq, Repr

def RateLimitError.message : RateLimitError → String
  | .sender => "message rate limit exceeded"
  | .global => "global rate limit exceeded"

/-- The buckets: their sizes, the cells left for all, and those left for each known
sender. -/
structure RateLimits where
  perSender : Nat
  common : Nat
  globalLeft : Nat
  senders : List (PrincipalId × Nat) := []
  deriving Repr, Inhabited

namespace RateLimits

/-- Full buckets for the rates of a configuration, which may not be zero. -/
def ofConfig (config : LimitsConfig) : Except ConfigError RateLimits :=
  if config.messagesPerMinute = 0 then
    .error (.invalid "limits.messages_per_minute must be > 0")
  else if config.globalRequestsPerSecond = 0 then
    .error (.invalid "limits.global_requests_per_second must be > 0")
  else
    .ok { perSender := config.messagesPerMinute
          common := config.globalRequestsPerSecond
          globalLeft := config.globalRequestsPerSecond }

/-- Takes a cell from the common bucket. -/
def checkGlobal (limits : RateLimits) : RateLimits × Except RateLimitError Unit :=
  match limits.globalLeft with
  | 0 => (limits, .error .global)
  | left + 1 => ({ limits with globalLeft := left }, .ok ())

def leftFor (limits : RateLimits) (sender : PrincipalId) : Nat :=
  (limits.senders.lookup sender).getD limits.perSender

/-- The buckets with so many cells left for a sender. -/
def setLeft (limits : RateLimits) (sender : PrincipalId) (left : Nat) : RateLimits :=
  let others := limits.senders.filter (·.1 ≠ sender)
  { limits with senders := others ++ [(sender, left)] }

/-- Takes a cell from the bucket of a sender. -/
def checkSender (limits : RateLimits) (sender : PrincipalId) :
    RateLimits × Except RateLimitError Unit :=
  match limits.leftFor sender with
  | 0 => (limits.setLeft sender 0, .error .sender)
  | left + 1 => (limits.setLeft sender left, .ok ())

/-- Takes a cell from the common bucket and then one from that of the sender. -/
def takeCells (limits : RateLimits) (sender : PrincipalId) :
    RateLimits × Except RateLimitError Unit :=
  match limits.checkGlobal with
  | (limits, .error e) => (limits, .error e)
  | (limits, .ok ()) => limits.checkSender sender

def senderCount (limits : RateLimits) : Nat := limits.senders.length

/-- Cells come back: so many to the common bucket, and to that of each known sender as
many as `own` tells, as far as there is room for them. -/
def refill (limits : RateLimits) (common : Nat) (own : PrincipalId → Nat) : RateLimits :=
  { limits with
    globalLeft := min (limits.globalLeft + common) limits.common
    senders := limits.senders.map fun (sender, left) =>
      (sender, min (left + own sender) limits.perSender) }

/-- Forgets the senders whose buckets are full. -/
def clear (limits : RateLimits) : RateLimits :=
  { limits with senders := limits.senders.filter (·.2 < limits.perSender) }

def description : String :=
  "RateLimits \x7b message_limiter: \"KeyedLimiter<PrincipalId>\", " ++
    "global_limiter: \"DirectLimiter\" \x7d"

end RateLimits
end DeviceRelay
