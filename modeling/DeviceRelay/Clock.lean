/-
# Time in milliseconds

Time is a number of milliseconds since the zero of a clock that only goes forward. A
run starts at zero; one that starts later is one that begins with the passing of time.
A wait is set to end at a moment that the clock can name. Where the moment is beyond the
clock, a timer is set to thirty years from now, and a deadline does not exist.

Key definitions: `Clock`, `Clock.deadline?`, `Clock.due`, `Clock.wall`, `durationText`.
-/
import DeviceRelay.Number.Power

namespace DeviceRelay

/-- The seconds that a clock can count. -/
def clockRange : Nat := twoTo 63 - 1

/-- Thirty years in milliseconds. -/
def farFuture : Nat := 30 * 365 * 86400 * 1000

/-- The moment, `timeout` from `now`, unless the clock cannot name it. -/
def deadline? (now timeout : Nat) : Option Nat :=
  if (now + timeout) / 1000 ≤ clockRange then some (now + timeout) else none

/-- When a timer fires that is set for `timeout` from `now`. -/
def timerDue (now timeout : Nat) : Nat := (deadline? now timeout).getD (now + farFuture)

/-- The present moment, and the seconds since 1970 at moment zero. -/
structure Clock where
  now : Nat := 0
  epoch : Int := 0
  deriving DecidableEq, Repr, Inhabited

/-- The seconds since 1970. -/
def Clock.wall (clock : Clock) : Int := clock.epoch + clock.now / 1000

/-- A duration with its unit: seconds with the decimals needed, or milliseconds below
one second. -/
def durationText (ms : Nat) : String :=
  let decimals := fun n : Nat =>
    let digits := (toString (1000 + n)).toList.tail
    String.ofList ((digits.reverse.dropWhile (· = '0')).reverse)
  if ms = 0 then "0ns"
  else if ms < 1000 then s!"{ms}ms"
  else if ms % 1000 = 0 then s!"{ms / 1000}s"
  else s!"{ms / 1000}.{decimals (ms % 1000)}s"

end DeviceRelay
