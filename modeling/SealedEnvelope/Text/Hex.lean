import SealedEnvelope.Bytes
import SealedEnvelope.Text.Utf8

/-!
# `SealedEnvelope.Text.Hex`: bytes as hexadecimal text

Two digits a byte, the high half first. Digits are written in lower case and read in
either case. A text that is no hexadecimal text fails for the first reason that
applies: an odd number of bytes, or else the first byte that is not a digit. The
position of that byte counts bytes of the text and not its characters.
-/

set_option autoImplicit false

namespace SealedEnvelope.Hex

/-- Why a text is not hexadecimal. -/
inductive Error where
  /-- The text has an odd number of bytes. -/
  | oddLength
  /-- The byte at this position, counted from zero, is not a digit. -/
  | invalidDigit (byte : UInt8) (position : Nat)
  deriving DecidableEq, Repr

/-- The digit of a number below sixteen. -/
def digit (n : Nat) : Char :=
  if n < 10 then Char.ofNat (0x30 + n) else Char.ofNat (0x61 + (n - 10))

/-- The value of a digit in either case. -/
def digitValue? (b : UInt8) : Option Nat :=
  let n := b.toNat
  if 0x30 ≤ n ∧ n ≤ 0x39 then some (n - 0x30)
  else if 0x61 ≤ n ∧ n ≤ 0x66 then some (n - 0x61 + 10)
  else if 0x41 ≤ n ∧ n ≤ 0x46 then some (n - 0x41 + 10)
  else none

/-- The two digits of a byte. -/
def encodeByte (b : UInt8) : List Char := [digit (b.toNat / 16), digit (b.toNat % 16)]

/-- The hexadecimal text of a byte string. -/
def encode (bytes : Bytes) : String := String.ofList (bytes.flatMap encodeByte)

/-- The bytes that pairs of digits stand for, where `position` is that of the first. -/
def decodePairs (position : Nat) : Bytes → Except Error Bytes
  | [] => .ok []
  | [_] => .error .oddLength
  | high :: low :: rest =>
    match digitValue? high, digitValue? low with
    | none, _ => .error (.invalidDigit high position)
    | some _, none => .error (.invalidDigit low (position + 1))
    | some h, some l => (decodePairs (position + 2) rest).map (UInt8.ofNat (16 * h + l) :: ·)

/-- Reads the bytes of a hexadecimal text. -/
def decodeBytes (text : Bytes) : Except Error Bytes :=
  if text.length % 2 = 1 then .error .oddLength else decodePairs 0 text

/-- Reads a hexadecimal text. -/
def decode (text : String) : Except Error Bytes := decodeBytes (Utf8.encode text)

end SealedEnvelope.Hex
