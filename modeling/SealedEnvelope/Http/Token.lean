import SealedEnvelope.Bytes

/-!
# `SealedEnvelope.Http.Token`: the words of HTTP

Methods, the names of headers and the parts of a content type are tokens: words of
letters, digits and fifteen signs, none of which separates anything.
-/

set_option autoImplicit false

namespace SealedEnvelope.Http

/-- Whether a byte may stand in a token. -/
def isTokenByte (b : UInt8) : Bool :=
  let n := b.toNat
  (0x30 ≤ n && n ≤ 0x39) || (0x41 ≤ n && n ≤ 0x5A) || (0x61 ≤ n && n ≤ 0x7A)
    || n == 0x21 || (0x23 ≤ n && n ≤ 0x27) || n == 0x2A || n == 0x2B || n == 0x2D || n == 0x2E
    || n == 0x5E || n == 0x5F || n == 0x60 || n == 0x7C || n == 0x7E

/-- Whether a text is a token. -/
def isToken (text : Bytes) : Bool := !text.isEmpty && text.all isTokenByte

end SealedEnvelope.Http
