import SealedEnvelope.Entropy

/-!
# `SealedEnvelope.Entropy.Congruential`: a source that can be repeated

A linear congruential generator modulo 2^64. It starts from a seed, applies
`x ↦ factor · x + offset` once for each byte, and gives the top byte of the result.
Since the steps are affine maps, the map of `n` steps is found in about `log n`
compositions, and any byte of the sequence can be had without those before it.

Such a source is predictable. It stands in where a run has to be the same every time.
-/

set_option autoImplicit false

namespace SealedEnvelope.Congruential

/-- The map `x ↦ factor · x + offset` modulo 2^64. -/
structure Affine where
  factor : UInt64
  offset : UInt64

namespace Affine

/-- The map that changes nothing. -/
def identity : Affine := ⟨1, 0⟩

/-- The image of a number. -/
def apply (f : Affine) (x : UInt64) : UInt64 := f.factor * x + f.offset

/-- First `g`, then `f`. -/
def comp (f g : Affine) : Affine := ⟨f.factor * g.factor, f.factor * g.offset + f.offset⟩

/-- The map applied `n` times, by halving `n`. -/
def iterate (f : Affine) (n : Nat) : Affine :=
  if n = 0 then identity
  else
    let half := f.iterate (n / 2)
    let twice := half.comp half
    if n % 2 = 0 then twice else f.comp twice
termination_by n

end Affine

/-- One step of the generator. -/
def step : Affine := ⟨6364136223846793005, 1442695040888963407⟩

/-- The byte given by the state after `i + 1` steps. -/
def byteAt (seed : UInt64) (i : Nat) : UInt8 :=
  (((step.iterate (i + 1)).apply seed) >>> 56).toUInt8

/-- The source that starts from a seed and gives at most `limit` bytes, if there is a limit. -/
def source (seed : UInt64) (limit : Option Nat) : Entropy :=
  { byteAt := byteAt seed, remaining := limit }

end SealedEnvelope.Congruential
