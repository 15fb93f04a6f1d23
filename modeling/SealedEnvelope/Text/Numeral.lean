/-!
# `SealedEnvelope.Text.Numeral`: natural numbers in decimal

Reading takes an optional `+` and then one or more ASCII digits, and nothing else: no
blanks, no separators, no sign other than `+`. A number that does not stay below a
given bound is refused, however many leading zeros it has.
-/

set_option autoImplicit false

namespace SealedEnvelope.Numeral

/-- The value of a decimal digit. -/
def digitValue? (c : Char) : Option Nat :=
  if 0x30 ≤ c.toNat ∧ c.toNat ≤ 0x39 then some (c.toNat - 0x30) else none

/-- The number that the digits spell after those already read as `n`. -/
def readDigits : (n : Nat) → List Char → Option Nat
  | n, [] => some n
  | n, c :: rest => (digitValue? c).bind fun d => readDigits (10 * n + d) rest

/-- The number below `bound` that a text spells, if it does. -/
def parse? (bound : Nat) (text : String) : Option Nat :=
  let digits :=
    match text.toList with
    | '+' :: rest => rest
    | chars => chars
  if digits.isEmpty then none
  else (readDigits 0 digits).filter (· < bound)

/-- The decimal text of a natural number. -/
def render (n : Nat) : String := String.ofList (Nat.toDigits 10 n)

/-- The decimal text of an integer, with `-` in front of a negative one. -/
def renderInt (n : Int) : String :=
  if n < 0 then "-" ++ render n.natAbs else render n.natAbs

/-- The decimal text of a natural number, filled up with zeros to `width` digits. -/
def renderPadded (width n : Nat) : String :=
  let digits := Nat.toDigits 10 n
  String.ofList (List.replicate (width - digits.length) '0' ++ digits)

end SealedEnvelope.Numeral
