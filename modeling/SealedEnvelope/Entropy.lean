import SealedEnvelope.Bytes

/-!
# `SealedEnvelope.Entropy`: a source of random bytes

A source is an endless sequence of bytes, the position up to which it has been used,
and, if it can run dry, how many bytes it will still give. A draw takes the next bytes
all at once or, when fewer are left, fails and takes none.

`Drawing ε α` is a computation that draws. What has been drawn stays drawn when the
computation fails later, so the source is threaded through failures too.
-/

set_option autoImplicit false

namespace SealedEnvelope

/-- A source of random bytes. -/
structure Entropy where
  /-- The byte at each position of the sequence. -/
  byteAt : Nat → UInt8
  /-- The position of the next byte. -/
  position : Nat := 0
  /-- How many bytes are left, or nothing if there is no end of them. -/
  remaining : Option Nat := none

namespace Entropy

/-- The source that gives these bytes and then no more. -/
def ofBytes (bytes : Bytes) : Entropy :=
  { byteAt := fun i => bytes.getD i 0, remaining := some bytes.length }

/-- Whether `n` more bytes can be drawn. -/
def has (e : Entropy) (n : Nat) : Bool := e.remaining.all (n ≤ ·)

/-- The next `n` bytes, whether or not so many are left. -/
def peek (e : Entropy) (n : Nat) : FixedBytes n := FixedBytes.ofFn n fun i => e.byteAt (e.position + i)

/-- The source after `n` more bytes. -/
def advance (e : Entropy) (n : Nat) : Entropy :=
  { e with position := e.position + n, remaining := e.remaining.map (· - n) }

/-- The next `n` bytes and the source after them, if so many are left. -/
def draw? (e : Entropy) (n : Nat) : Option (FixedBytes n × Entropy) :=
  if e.has n then some (e.peek n, e.advance n) else none

end Entropy

/-- A computation that draws random bytes and may fail with an `ε`. -/
abbrev Drawing (ε α : Type) := ExceptT ε (StateM Entropy) α

namespace Drawing

/-- Draws `n` bytes, or fails with `err` and draws none. -/
def bytes {ε : Type} (err : ε) (n : Nat) : Drawing ε (FixedBytes n) := fun e =>
  match e.draw? n with
  | some (drawn, rest) => (.ok drawn, rest)
  | none => (.error err, e)

/-- The same computation with its failures renamed. -/
def mapError {ε ε' α : Type} (f : ε → ε') (x : Drawing ε α) : Drawing ε' α := fun e =>
  let outcome := x e
  (outcome.1.mapError f, outcome.2)

end Drawing

end SealedEnvelope
