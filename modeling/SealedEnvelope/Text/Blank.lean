/-!
# `SealedEnvelope.Text.Blank`: the characters that surround a text

White space is meant in the sense of the Unicode property of that name, which has
twenty-five members. `trim` removes it from both ends of a text.
-/

set_option autoImplicit false

namespace SealedEnvelope.Text

/-- Whether a character has the Unicode property White_Space. -/
def isBlank (c : Char) : Bool :=
  let n := c.toNat
  (0x09 ≤ n && n ≤ 0x0D) || n == 0x20 || n == 0x85 || n == 0xA0 || n == 0x1680
    || (0x2000 ≤ n && n ≤ 0x200A) || n == 0x2028 || n == 0x2029 || n == 0x202F
    || n == 0x205F || n == 0x3000

/-- The text without the characters at its end that satisfy `drop`. -/
def dropEndWhile (drop : Char → Bool) (text : String) : String :=
  String.ofList (text.toList.reverse.dropWhile drop).reverse

/-- The text without the white space around it. -/
def trim (text : String) : String :=
  dropEndWhile isBlank (String.ofList (text.toList.dropWhile isBlank))

end SealedEnvelope.Text
