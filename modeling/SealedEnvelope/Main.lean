import SealedEnvelope.CommandLine.Run
import SealedEnvelope.Crypto.Standard
import Std.Time.DateTime.Timestamp

/-!
# `SealedEnvelope.Main`: the program

The command line on the clock, the random bytes and the standard streams of the machine.
Everything that is decided is decided by `CommandLine.run`.
-/

set_option autoImplicit false

namespace SealedEnvelope.CommandLine

/-- The time on the wall. -/
def wallClock : IO Instant := do
  let time ← Std.Time.Timestamp.now
  return Instant.ofUnixNanos time.toNanosecondsSinceUnixEpoch.val

/-- The number of random bytes that one run draws at most: those of fresh keys. -/
def drawnAtMost : Nat := 96

/-- What there is on the standard input, if the arguments ask for it. -/
def readInput (arguments : List String) : IO Bytes := do
  if asksForInput arguments then
    let input ← (← IO.getStdin).readBinToEnd
    return input.toList
  else
    return []

end SealedEnvelope.CommandLine

open SealedEnvelope in
/-- Runs the program and tells the caller whether it failed. -/
def main (arguments : List String) : IO UInt32 := do
  let now ← CommandLine.wallClock
  let random ← IO.getRandomBytes CommandLine.drawnAtMost.toUSize
  let input ← CommandLine.readInput arguments
  let run := CommandLine.run Suite.standard now input arguments
  let ending := (run.run (Entropy.ofBytes random.toList)).1
  IO.print ending.output
  IO.eprint ending.errors
  return ending.exitCode
