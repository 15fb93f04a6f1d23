import SealedEnvelope.Bytes

/-!
# `SealedEnvelope.Crypto.Field25519`: arithmetic modulo `2^255 - 19`

Elements of the field are natural numbers below the prime. Every operation reduces its
result, so it may be given any numbers.
-/

set_option autoImplicit false

namespace SealedEnvelope.Field25519

/-- The order of the field. -/
def prime : Nat := Nat.pow 2 255 - 19

/-- The sum of two elements. -/
def add (a b : Nat) : Nat := (a + b) % prime

/-- The difference of two elements. -/
def sub (a b : Nat) : Nat := (a + (prime - b % prime)) % prime

/-- The product of two elements. -/
def mul (a b : Nat) : Nat := a * b % prime

/-- The element with the opposite sign. -/
def neg (a : Nat) : Nat := sub 0 a

/-- The power of an element, by halving the exponent. -/
def pow (a n : Nat) : Nat :=
  if n = 0 then 1
  else
    let half := pow a (n / 2)
    let square := mul half half
    if n % 2 = 0 then square else mul square a
termination_by n

/-- The inverse of an element; zero stays zero. -/
def inverse (a : Nat) : Nat := pow a (prime - 2)

/-- A square root of minus one. -/
def rootOfMinusOne : Nat := pow 2 ((prime - 1) / 4)

/-- A square root of a quotient, if it has one. The candidate is right up to a fourth
root of unity, and is corrected by a root of minus one where its square has the wrong
sign. -/
def sqrtRatio? (numerator denominator : Nat) : Option Nat :=
  let cube := mul denominator (mul denominator denominator)
  let seventh := mul cube (mul cube denominator)
  let candidate := mul (mul numerator cube) (pow (mul numerator seventh) ((prime - 5) / 8))
  let check := mul denominator (mul candidate candidate)
  if check = numerator % prime then some candidate
  else if check = neg numerator then some (mul candidate rootOfMinusOne)
  else none

end SealedEnvelope.Field25519
