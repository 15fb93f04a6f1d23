import SealedEnvelope.Bytes

/-!
# `SealedEnvelope.Text.Base64`: bytes as base64 text

The standard alphabet with padding. Three bytes are four digits; one or two bytes at
the end are padded to four with `=`. The reader is strict: padding is required, it
stands nowhere but at the end, and the bits that a padded group leaves over are zero,
so that each byte string has exactly one text.

Both sides are byte strings, since the texts travel as the values of length-value
elements.
-/

set_option autoImplicit false

namespace SealedEnvelope.Base64

/-- The digit of a number below sixty-four: `A` to `Z`, `a` to `z`, `0` to `9`, `+`, `/`. -/
def digit (n : Nat) : UInt8 :=
  if n < 26 then UInt8.ofNat (0x41 + n)
  else if n < 52 then UInt8.ofNat (0x61 + (n - 26))
  else if n < 62 then UInt8.ofNat (0x30 + (n - 52))
  else if n = 62 then 0x2B
  else 0x2F

/-- The value of a digit. -/
def digitValue? (b : UInt8) : Option Nat :=
  let n := b.toNat
  if 0x41 ≤ n ∧ n ≤ 0x5A then some (n - 0x41)
  else if 0x61 ≤ n ∧ n ≤ 0x7A then some (n - 0x61 + 26)
  else if 0x30 ≤ n ∧ n ≤ 0x39 then some (n - 0x30 + 52)
  else if n = 0x2B then some 62
  else if n = 0x2F then some 63
  else none

/-- The sign that fills up the last group. -/
def padding : UInt8 := 0x3D

/-- The base64 text of a byte string. -/
def encode : Bytes → Bytes
  | [] => []
  | [a] =>
    let n := a.toNat
    [digit (n / 4), digit (n % 4 * 16), padding, padding]
  | [a, b] =>
    let n := 256 * a.toNat + b.toNat
    [digit (n / 1024), digit (n / 16 % 64), digit (n % 16 * 4), padding]
  | a :: b :: c :: rest =>
    let n := 256 * (256 * a.toNat + b.toNat) + c.toNat
    digit (n / 262144) :: digit (n / 4096 % 64) :: digit (n / 64 % 64) :: digit (n % 64)
      :: encode rest

/-- The bytes of the last group, which may be padded. -/
def decodeLast (a b c d : UInt8) : Option Bytes := do
  let x ← digitValue? a
  let y ← digitValue? b
  if c = padding then
    if d = padding ∧ y % 16 = 0 then
      some [UInt8.ofNat (4 * x + y / 16)]
    else
      none
  else
    let z ← digitValue? c
    if d = padding then
      if z % 4 = 0 then
        some [UInt8.ofNat (4 * x + y / 16), UInt8.ofNat (16 * y + z / 4)]
      else
        none
    else
      let w ← digitValue? d
      some [UInt8.ofNat (4 * x + y / 16), UInt8.ofNat (16 * y + z / 4), UInt8.ofNat (64 * z + w)]

/-- The bytes of a group that is not the last: four digits and no padding. -/
def decodeGroup (a b c d : UInt8) : Option Bytes := do
  let x ← digitValue? a
  let y ← digitValue? b
  let z ← digitValue? c
  let w ← digitValue? d
  some [UInt8.ofNat (4 * x + y / 16), UInt8.ofNat (16 * y + z / 4), UInt8.ofNat (64 * z + w)]

/-- The byte string whose text this is, if it is one. -/
def decode? : Bytes → Option Bytes
  | [] => some []
  | [a, b, c, d] => decodeLast a b c d
  | a :: b :: c :: d :: rest => do
    let group ← decodeGroup a b c d
    let others ← decode? rest
    some (group ++ others)
  | _ => none

end SealedEnvelope.Base64
