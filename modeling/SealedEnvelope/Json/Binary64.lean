import SealedEnvelope.Text.Numeral

/-!
# `SealedEnvelope.Json.Binary64`: finite binary floating point numbers of 64 bits

A number is a sign, an integer of at most 53 bits and a power of two, in the one form
that fills the 53 bits unless the number is too small for it. All arithmetic is done on
natural numbers: an exact quotient is formed, and then rounded once to the nearest
number, a tie to the even neighbour.

`shortest` finds the fewest decimal digits that round back to a number, and `render`
sets them out.
-/

set_option autoImplicit false

namespace SealedEnvelope

/-- A finite binary floating point number: `mantissa * 2 ^ exponent` with a sign. The
mantissa is below `2 ^ 53`, and not below `2 ^ 52` unless the exponent is the least. -/
structure Binary64 where
  negative : Bool
  mantissa : Nat
  exponent : Int
  mantissa_lt : mantissa < 9007199254740992
  exponent_ge : -1074 ≤ exponent
  exponent_le : exponent ≤ 971
  normal : mantissa < 4503599627370496 → exponent = -1074
  deriving DecidableEq

namespace Binary64

/-- Zero, with either sign. -/
def zero (negative : Bool) : Binary64 where
  negative := negative
  mantissa := 0
  exponent := -1074
  mantissa_lt := by decide
  exponent_ge := by decide
  exponent_le := by decide
  normal := fun _ => rfl

/-- The number with these parts, if they are in the right form. -/
def ofParts? (negative : Bool) (mantissa : Nat) (exponent : Int) : Option Binary64 :=
  if h : mantissa < 9007199254740992 ∧ -1074 ≤ exponent ∧ exponent ≤ 971
      ∧ (mantissa < 4503599627370496 → exponent = -1074) then
    some
      { negative := negative, mantissa := mantissa, exponent := exponent, mantissa_lt := h.1
        exponent_ge := h.2.1, exponent_le := h.2.2.1, normal := h.2.2.2 }
  else
    none

/-- Whether the number is zero. -/
def isZero (x : Binary64) : Bool := x.mantissa == 0

/-- The quotient rounded to the nearest natural number, a tie to the even one. -/
def roundQuotient (numerator denominator : Nat) : Nat :=
  let q := numerator / denominator
  let r := 2 * (numerator % denominator)
  if r < denominator then q
  else if denominator < r then q + 1
  else if q % 2 = 0 then q
  else q + 1

/-- The number `2 ^ n` as the quotient of two natural numbers. -/
def powerOfTwo (n : Int) : Nat × Nat := (Nat.pow 2 n.toNat, Nat.pow 2 (-n).toNat)

/-- The number nearest to `numerator / denominator * 2 ^ scale`, if it is not too large. -/
def ofQuotient? (negative : Bool) (numerator denominator : Nat) (scale : Int) : Option Binary64 :=
  if numerator = 0 then some (zero negative)
  else
    -- The leading bit of the quotient is the estimate or the one below it.
    let estimate := (numerator.log2 : Int) - denominator.log2
    let unit := powerOfTwo (-estimate)
    let top := if denominator * unit.2 ≤ numerator * unit.1 then estimate else estimate - 1
    let exponent := max (top + scale - 52) (-1074)
    let factor := powerOfTwo (scale - exponent)
    let rounded := roundQuotient (numerator * factor.1) (denominator * factor.2)
    -- Rounding up may carry into one bit more, which leaves a power of two.
    if rounded = 9007199254740992 then ofParts? negative 4503599627370496 (exponent + 1)
    else ofParts? negative rounded exponent

/-- The number nearest to a natural number. -/
def ofNat? (n : Nat) : Option Binary64 := ofQuotient? false n 1 0

/-- The product, rounded, if it is not too large. -/
def mul? (x y : Binary64) : Option Binary64 :=
  ofQuotient? (x.negative != y.negative) (x.mantissa * y.mantissa) 1 (x.exponent + y.exponent)

/-- The quotient, rounded, if it is not too large. -/
def div? (x y : Binary64) : Option Binary64 :=
  if y.mantissa = 0 then none
  else
    ofQuotient? (x.negative != y.negative) x.mantissa y.mantissa (x.exponent - y.exponent)

/-- The number with the opposite sign. -/
def neg (x : Binary64) : Binary64 := { x with negative := !x.negative }

/-! ## Decimal text -/

/-- A decimal number `digits * 10 ^ exponent`. -/
structure Decimal where
  digits : Nat
  exponent : Int

/-- The multiple of `10 ^ exponent` that is nearest to the number, if it is nearer to the
number than to any other one. An end of the interval of what rounds to the number belongs
to it if the mantissa is even; at a power of two the lower half of it is half as long. -/
def multipleAt? (x : Binary64) (exponent : Int) : Option Decimal :=
  -- Quarters of the last bit are counted, since the interval may end at one.
  let units := powerOfTwo (x.exponent - 2)
  let scale := fun quarters : Nat => quarters * units.1 * Nat.pow 10 (-exponent).toNat
  let grid := fun multiple : Nat => multiple * units.2 * Nat.pow 10 exponent.toNat
  let value := scale (4 * x.mantissa)
  let low := scale (4 * x.mantissa - if x.mantissa = 4503599627370496 ∧ -1074 < x.exponent then 1 else 2)
  let high := scale (4 * x.mantissa + 2)
  let inside := fun multiple =>
    if x.mantissa % 2 = 0 then low ≤ grid multiple && grid multiple ≤ high
    else low < grid multiple && grid multiple < high
  let below := value / grid 1
  let above := below + 1
  let belowNearer :=
    let toBelow := value - grid below
    let toAbove := grid above - value
    toBelow < toAbove || (toBelow == toAbove && below % 2 == 0)
  match inside below, inside above with
  | true, true => some ⟨if belowNearer then below else above, exponent⟩
  | true, false => some ⟨below, exponent⟩
  | false, true => some ⟨above, exponent⟩
  | false, false => none

/-- The decimal number of the fewest digits that is nearer to the number than to any other
one, searched from the coarsest grid to the finest that can be needed. -/
def shortest (x : Binary64) : Decimal :=
  ((List.range 640).findSome? fun i : Nat => x.multipleAt? (309 - (i : Int))).getD ⟨0, 0⟩

/-- The text of a number: positional from `1e-5` up to below `1e16`, with a point in it,
and otherwise with one digit before the point and an exponent that has a sign. -/
def render (x : Binary64) : String :=
  let sign := if x.negative then "-" else ""
  if x.isZero then sign ++ "0.0"
  else
    let decimal := x.shortest
    let digits := Nat.toDigits 10 decimal.digits
    let point := (digits.length : Int) + decimal.exponent
    let text := String.ofList
    let zeros := fun n : Int => List.replicate n.toNat '0'
    sign ++
      if -4 ≤ point ∧ point ≤ 0 then "0." ++ text (zeros (-point) ++ digits)
      else if 0 < point ∧ point ≤ 16 then
        if digits.length ≤ point then text (digits ++ zeros decimal.exponent) ++ ".0"
        else text (digits.take point.toNat) ++ "." ++ text (digits.drop point.toNat)
      else
        let exponent := point - 1
        let fraction := if digits.length = 1 then "" else "." ++ text (digits.drop 1)
        text (digits.take 1) ++ fraction ++ "e" ++ (if exponent < 0 then "-" else "+")
          ++ Numeral.render exponent.natAbs

end Binary64

end SealedEnvelope
