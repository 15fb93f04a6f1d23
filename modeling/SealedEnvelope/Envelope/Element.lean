import SealedEnvelope.Envelope.Error
import SealedEnvelope.Json.Writer
import SealedEnvelope.Text.Blank
import SealedEnvelope.Text.Hex

/-!
# `SealedEnvelope.Envelope.Element`: what an element can stand for

The value of an element is a byte string. It can be given as a text, as a number of four
or eight bytes or as JSON, and any value can be looked at as a text or, if it has the right
length, as a number. Numbers inside a value have the least significant byte first, unlike
the length in front of it.

An element travels as hexadecimal text, which may stand between blanks and is read in
either case.
-/

set_option autoImplicit false

namespace SealedEnvelope

/-- Reads hexadecimal text that may stand between blanks. -/
def readHex (text : String) : Except EnvelopeError Bytes :=
  (Hex.decode (Text.trim text)).mapError fun _ => .invalidHex

namespace Element

/-- The value that is a text. -/
def ofText (text : String) : Bytes := Utf8.encode text

/-- The value that is a number of so many bytes. -/
def ofNumber (width n : Nat) : Bytes := littleEndian width n

/-- The value that is JSON. -/
def ofJson (value : JsonValue) : Bytes := value.bytes

/-- The value as a text, with U+FFFD for what is no text. -/
def text (value : Bytes) : String := Utf8.decodeLossy value

/-- The value as a number of so many bytes. -/
def number? (width : Nat) (value : Bytes) : Option Nat :=
  if value.length = width then some (ofLittleEndian value) else none

/-- The element with a value, as hexadecimal text. -/
def toHex (value : Bytes) : Except EnvelopeError String :=
  (EnvelopeError.onWire (LengthValue.encode value)).map Hex.encode

/-- The value of the element that a hexadecimal text begins with. -/
def ofHex (text : String) : Except EnvelopeError Bytes := do
  let bytes ← readHex text
  EnvelopeError.onWire (LengthValue.decode bytes)

end Element

end SealedEnvelope
