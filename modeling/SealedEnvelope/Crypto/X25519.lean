import SealedEnvelope.Crypto.Field25519

/-!
# `SealedEnvelope.Crypto.X25519`: key agreement on the Montgomery curve

A secret of 32 bytes is made a factor by fixing five of its bits, and a public key is
the `u` coordinate of a point. The top bit of a public key is ignored and its number is
reduced, so every byte string of the right length is one. The ladder goes through the
bits of the factor from the top and keeps two neighbouring multiples of the point.
-/

set_option autoImplicit false

namespace SealedEnvelope.X25519

open Field25519

/-- A `u` coordinate as the quotient `x / z`. -/
structure Coordinate where
  x : Nat
  z : Nat

/-- The multiples `m` and `m + 1` of a point. -/
structure Rung where
  lower : Coordinate
  upper : Coordinate

/-- The coordinate of twice a point. -/
def Coordinate.double (p : Coordinate) : Coordinate :=
  let a := add p.x p.z
  let b := sub p.x p.z
  let aa := mul a a
  let bb := mul b b
  let e := sub aa bb
  ⟨mul aa bb, mul e (add aa (mul 121665 e))⟩

/-- The coordinate of the sum of two points whose difference has the coordinate `u`. -/
def Coordinate.addAt (u : Nat) (p q : Coordinate) : Coordinate :=
  let da := mul (sub q.x q.z) (add p.x p.z)
  let cb := mul (add q.x q.z) (sub p.x p.z)
  let sum := add da cb
  let difference := sub da cb
  ⟨mul sum sum, mul u (mul difference difference)⟩

/-- The multiples `n` and `n + 1` of the point with the coordinate `u`. -/
def ladder (u n : Nat) : Rung :=
  if n = 0 then ⟨⟨1, 0⟩, ⟨u, 1⟩⟩
  else
    let half := ladder u (n / 2)
    let middle := half.lower.addAt u half.upper
    if n % 2 = 0 then ⟨half.lower.double, middle⟩ else ⟨middle, half.upper.double⟩
termination_by n

/-- The factor in a secret: a multiple of eight between `2^254` and `2^255`. -/
def clamp (secret : FixedBytes 32) : Nat := ofLittleEndian secret.val % Nat.pow 2 254 / 8 * 8 + Nat.pow 2 254

/-- The bytes of the coordinate `u` multiplied by a factor. -/
def scale (factor u : Nat) : FixedBytes 32 :=
  let p := (ladder (u % prime) factor).lower
  ⟨littleEndian 32 (mul p.x (inverse p.z)), length_littleEndian 32 _⟩

/-- The public key of a secret. -/
def publicKey (secret : FixedBytes 32) : FixedBytes 32 := scale (clamp secret) 9

/-- The secret that a secret and the other side's public key agree on. -/
def exchange (secret peer : FixedBytes 32) : FixedBytes 32 :=
  scale (clamp secret) (ofLittleEndian peer.val % Nat.pow 2 255)

end SealedEnvelope.X25519
