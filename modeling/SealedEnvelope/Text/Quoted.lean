import SealedEnvelope.Text.Visible

/-!
# `SealedEnvelope.Text.Quoted`: text between quotation marks

The form in which a text of unknown content is shown to a person. The quotation mark
in use, the backslash and the common controls are written with a backslash, a hidden
character as `\u` and its code point in braces, and all else as itself. A text stands
between double quotation marks and a single character between single ones, and each
leaves the other's mark alone.
-/

set_option autoImplicit false

namespace SealedEnvelope.Quoted

/-- One character as it stands between the marks `mark`. -/
def escape (mark c : Char) : List Char :=
  if c = '\x00' then ['\\', '0']
  else if c = '\t' then ['\\', 't']
  else if c = '\r' then ['\\', 'r']
  else if c = '\n' then ['\\', 'n']
  else if c = '\\' ∨ c = mark then ['\\', c]
  else if Text.isVisible c then [c]
  else ['\\', 'u', '\x7b'] ++ Nat.toDigits 16 c.toNat ++ ['\x7d']

/-- A text between double quotation marks. -/
def text (s : String) : String :=
  String.ofList (['\x22'] ++ s.toList.flatMap (escape '\x22') ++ ['\x22'])

/-- A character between single quotation marks. -/
def character (c : Char) : String :=
  String.ofList (['\x27'] ++ escape '\x27' c ++ ['\x27'])

end SealedEnvelope.Quoted
