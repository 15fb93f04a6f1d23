import SealedEnvelope.Entropy
import SealedEnvelope.Time.Instant

/-!
# `SealedEnvelope.Clock`: what a party finds around it

Two clocks: the one on the wall, which stamps envelopes and tells their age, and a
steady one, by which prekeys and logins grow old. A world is the clocks and a source of
random bytes.
-/

set_option autoImplicit false

namespace SealedEnvelope

/-- A number of milliseconds. -/
abbrev Milliseconds := Nat

/-- The readings of both clocks. -/
structure Clock where
  wall : Instant
  /-- The time since some moment that stays the same. -/
  steady : Milliseconds

/-- The clocks and a source of random bytes. -/
structure World where
  clock : Clock
  entropy : Entropy

/-- Runs a computation on the random bytes of a world. -/
def World.draw {ε α : Type} (world : World) (drawing : Drawing ε α) : Except ε α × World :=
  let outcome := drawing world.entropy
  (outcome.1, { world with entropy := outcome.2 })

end SealedEnvelope
