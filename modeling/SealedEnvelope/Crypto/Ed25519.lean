import SealedEnvelope.Crypto.Field25519
import SealedEnvelope.Crypto.Sha2

/-!
# `SealedEnvelope.Crypto.Ed25519`: signatures on the twisted Edwards curve

Points of `-x^2 + y^2 = 1 + d x^2 y^2` are added in extended coordinates. A point is
encoded by its `y` and, in the top bit, the parity of its `x`.

Two liberties are taken when a point is read: a `y` that is not below the prime is
reduced, and the top bit is ignored where `x` is zero. A signature, on the other hand,
is read strictly: its second half must be below the order of the base point, and its
first half is compared as bytes with the encoding of the point that it should be. No
point is refused for having a small order.
-/

set_option autoImplicit false

namespace SealedEnvelope.Ed25519

open Field25519

/-- The coefficient `d` of the curve. -/
def coefficient : Nat := mul (neg 121665) (inverse 121666)

/-- The order of the base point. -/
def order : Nat := Nat.pow 2 252 + 27742317777372353535851937790883648493

/-- The point `(x / z, y / z)`, where `t = x y / z`. -/
structure Point where
  x : Nat
  y : Nat
  z : Nat
  t : Nat

namespace Point

/-- The neutral point. -/
def zero : Point := ⟨0, 1, 1, 0⟩

/-- The sum of two points, which may be equal. -/
def add (p q : Point) : Point :=
  let a := mul (sub p.y p.x) (sub q.y q.x)
  let b := mul (Field25519.add p.y p.x) (Field25519.add q.y q.x)
  let c := mul (mul (mul 2 coefficient) p.t) q.t
  let d := mul (mul 2 p.z) q.z
  let e := sub b a
  let f := sub d c
  let g := Field25519.add d c
  let h := Field25519.add b a
  ⟨mul e f, mul g h, mul f g, mul e h⟩

/-- The point with the opposite `x`. -/
def neg (p : Point) : Point := { p with x := Field25519.neg p.x, t := Field25519.neg p.t }

/-- The multiple of a point, by halving the factor. -/
def scale (n : Nat) (p : Point) : Point :=
  if n = 0 then zero
  else
    let half := scale (n / 2) p
    let twice := half.add half
    if n % 2 = 0 then twice else twice.add p
termination_by n

/-- The encoding of a point. -/
def encode (p : Point) : FixedBytes 32 :=
  let inv := inverse p.z
  let x := mul p.x inv
  let y := mul p.y inv
  ⟨littleEndian 32 (y + x % 2 * Nat.pow 2 255), length_littleEndian 32 _⟩

/-- The point that a byte string encodes, if it encodes one. -/
def decode? (bytes : FixedBytes 32) : Option Point :=
  let n := ofLittleEndian bytes.val
  let y := n % Nat.pow 2 255 % prime
  let square := mul y y
  (sqrtRatio? (sub square 1) (Field25519.add (mul coefficient square) 1)).map fun root =>
    -- Where the root is zero, both signs give the same point.
    let x := if root % 2 = n / Nat.pow 2 255 then root else Field25519.neg root
    ⟨x, y, 1, mul x y⟩

/-- The base point: `y` is four fifths, and `x` is even. -/
def base : Point :=
  (decode? ⟨littleEndian 32 (mul 4 (inverse 5)), length_littleEndian 32 _⟩).getD zero

end Point

/-- The secret factor in the first half of a digest: a multiple of eight between `2^254`
and `2^255`. -/
def clamp (digest : Bytes) : Nat :=
  let n := ofLittleEndian (digest.take 32)
  n % Nat.pow 2 254 / 8 * 8 + Nat.pow 2 254

/-- The digest of some byte strings as a number below the order of the base point. -/
def challenge (parts : List Bytes) : Nat := ofLittleEndian (Sha2.sha512 parts.flatten).val % order

/-- The public key of a seed. -/
def publicKey (seed : FixedBytes 32) : FixedBytes 32 :=
  (Point.base.scale (clamp (Sha2.sha512 seed.val).val)).encode

/-- The signature of a message under a seed. -/
def sign (seed : FixedBytes 32) (message : Bytes) : FixedBytes 64 :=
  let digest := (Sha2.sha512 seed.val).val
  let factor := clamp digest
  let key := (Point.base.scale factor).encode
  let r := challenge [digest.drop 32, message]
  let commitment := (Point.base.scale r).encode
  let s := (r + challenge [commitment.val, key.val, message] * factor) % order
  ⟨commitment.val ++ littleEndian 32 s, by simp [commitment.property]⟩

/-- Whether a byte string encodes a point of the curve. -/
def isPoint (bytes : FixedBytes 32) : Bool := (Point.decode? bytes).isSome

/-- Whether a signature of a message verifies under a public key. -/
def verify (key : FixedBytes 32) (message : Bytes) (signature : FixedBytes 64) : Bool :=
  let commitment := signature.val.take 32
  let s := ofLittleEndian (signature.val.drop 32)
  match Point.decode? key with
  | none => false
  | some point =>
    -- The point that the commitment should be is encoded, and the commitment is not decoded.
    s < order &&
      let k := challenge [commitment, key.val, message]
      ((Point.base.scale s).add (point.neg.scale k)).encode.val == commitment

end SealedEnvelope.Ed25519
