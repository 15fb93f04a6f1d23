/-!
# `SealedEnvelope.Time.Instant`: points in time

An instant is a number of whole seconds since the start of 1970 and a number of
nanoseconds. A leap second has no number of its own: it counts as the second before it,
with a thousand million nanoseconds or more. Leap seconds end a minute, but no instant
is refused for having one elsewhere; `Rfc3339` tells how such an instant is written.
-/

set_option autoImplicit false

namespace SealedEnvelope

/-- The nanoseconds of a second. -/
def nanosPerSecond : Nat := 1000000000

/-- A point in time. -/
structure Instant where
  /-- The whole seconds since the start of 1970, rounded down. -/
  seconds : Int
  /-- The nanoseconds since then, beyond a second in a leap second only. -/
  nanos : Nat
  nanos_lt : nanos < 2 * nanosPerSecond := by decide
  deriving DecidableEq

namespace Instant

/-- The instant with these parts, if there is one. -/
def ofParts? (seconds : Int) (nanos : Nat) : Option Instant :=
  if h : nanos < 2 * nanosPerSecond then
    some { seconds := seconds, nanos := nanos, nanos_lt := h }
  else
    none

/-- The instant so many nanoseconds after the start of 1970. -/
def ofUnixNanos (n : Int) : Instant where
  seconds := n / nanosPerSecond
  nanos := (n % nanosPerSecond).toNat
  nanos_lt := by
    simp only [nanosPerSecond]
    omega

/-- Whether the instant lies in a leap second. -/
def isLeap (t : Instant) : Bool := nanosPerSecond ≤ t.nanos

/-- The second of the day. -/
def secondOfDay (t : Instant) : Nat := (t.seconds % 86400).toNat

/-- The leap seconds that lie between the times of day of two instants and that their
numbers of seconds do not count: one, if the earlier time of day is in a leap second. -/
def leapBetween (later earlier : Instant) : Int :=
  if earlier.secondOfDay < later.secondOfDay then (if earlier.isLeap then 1 else 0)
  else if later.secondOfDay < earlier.secondOfDay then (if later.isLeap then -1 else 0)
  else 0

/-- The nanoseconds from one instant to a later one. -/
def since (later earlier : Instant) : Int :=
  (later.seconds - earlier.seconds + leapBetween later earlier) * nanosPerSecond
    + (later.nanos - earlier.nanos)

end Instant

end SealedEnvelope
