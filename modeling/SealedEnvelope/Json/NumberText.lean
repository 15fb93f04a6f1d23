import SealedEnvelope.Bytes
import SealedEnvelope.Json.Value

/-!
# `SealedEnvelope.Json.NumberText`: numbers as they stand in a JSON text

`NumberText.scan?` splits a number into its digits by the grammar alone, and
`NumberText.value?` says which number the digits are.

The digits are gathered into an integer for as long as it fits 64 bits. A number that is
no such integer is that integer, rounded, times or divided by a power of ten, rounded
again, so it need not be the nearest one to what is written. Powers beyond `10 ^ 308`
are divided by in steps. A number that is too large has no value.
-/

set_option autoImplicit false

namespace SealedEnvelope

/-- The parts of a number in a JSON text: its sign, the digits before and after the
point, and the exponent after an `e`, with its own sign. -/
structure NumberText where
  negative : Bool
  whole : List Nat
  fraction : List Nat
  exponent : Option Int

namespace NumberText

/-- The value of a decimal digit. -/
def digit? (b : UInt8) : Option Nat :=
  if 0x30 ≤ b.toNat ∧ b.toNat ≤ 0x39 then some (b.toNat - 0x30) else none

/-- The digits at the front of a text, and what follows them. -/
def takeDigits : Bytes → List Nat × Bytes
  | [] => ([], [])
  | b :: rest =>
    match digit? b with
    | none => ([], b :: rest)
    | some d =>
      let (digits, after) := takeDigits rest
      (d :: digits, after)

/-- Digits of which there must be at least one, and what follows them. -/
def takeSomeDigits? (text : Bytes) : Option (List Nat × Bytes) :=
  match takeDigits text with
  | ([], _) => none
  | found => some found

/-- The number that digits spell. -/
def ofDigits (digits : List Nat) : Nat := digits.foldl (fun n d => 10 * n + d) 0

/-- The digits after a point, if there is one, and what follows them. -/
def scanFraction? : Bytes → Option (List Nat × Bytes)
  | 0x2E :: rest => takeSomeDigits? rest
  | text => some ([], text)

/-- The exponent after an `e` in either case, if there is one, and what follows it. -/
def scanExponent? : Bytes → Option (Option Int × Bytes)
  | [] => some (none, [])
  | b :: rest =>
    if b = 0x65 ∨ b = 0x45 then do
      let (sign, rest) :=
        match rest with
        | 0x2B :: rest => (1, rest)
        | 0x2D :: rest => (-1, rest)
        | rest => ((1 : Int), rest)
      let (digits, rest) ← takeSomeDigits? rest
      some (some (sign * ofDigits digits), rest)
    else
      some (none, b :: rest)

/-- The number at the front of a text, and what follows it. A zero in front is not
followed by more digits. -/
def scan? (text : Bytes) : Option (NumberText × Bytes) := do
  let (negative, rest) :=
    match text with
    | 0x2D :: rest => (true, rest)
    | rest => (false, rest)
  let (whole, rest) ← takeSomeDigits? rest
  if whole.headD 0 = 0 ∧ whole.length ≠ 1 then none
  let (fraction, rest) ← scanFraction? rest
  let (exponent, rest) ← scanExponent? rest
  some ({ negative := negative, whole := whole, fraction := fraction, exponent := exponent }, rest)

/-- Gathers digits for as long as the integer fits 64 bits, and gives back the others. -/
def gather : (gathered : Nat) → List Nat → Nat × List Nat
  | n, [] => (n, [])
  | n, d :: rest => if 10 * n + d < UInt64.size then gather (10 * n + d) rest else (n, d :: rest)

/-- The power of ten nearest to `10 ^ n`. -/
def powerOfTen? (n : Nat) : Option Binary64 := Binary64.ofNat? (Nat.pow 10 n)

/-- The number times `10 ^ exponent`, if it is not too large. -/
def scale? (x : Binary64) (exponent : Int) : Option Binary64 :=
  if 0 ≤ exponent then
    if exponent ≤ 308 then (powerOfTen? exponent.toNat).bind x.mul?
    else if x.isZero then some x
    else none
  else if -308 ≤ exponent then (powerOfTen? (-exponent).toNat).bind x.div?
  else if x.isZero then some x
  else ((powerOfTen? 308).bind x.div?).bind fun smaller => scale? smaller (exponent + 308)
termination_by (-exponent).toNat

/-- The number that the digits are, if it is not too large. -/
def value? (t : NumberText) : Option JsonNumber :=
  let signed := fun x : Binary64 => JsonNumber.real (if t.negative then x.neg else x)
  let (n, left) := gather 0 t.whole
  if left = [] ∧ t.fraction = [] ∧ t.exponent = none then
    if h : t.negative = false ∧ n < 18446744073709551616 then some (.integer n (by omega))
    else if h : 0 < n ∧ n ≤ 9223372036854775808 then some (.integer (-n) (by omega))
    else (Binary64.ofNat? n).map signed
  else
    let (n, unread) := gather n t.fraction
    let exponent : Int := left.length - (t.fraction.length - unread.length) + t.exponent.getD 0
    ((Binary64.ofNat? n).bind fun x => scale? x exponent).map signed

end NumberText

end SealedEnvelope
