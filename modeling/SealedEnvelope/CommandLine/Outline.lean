import SealedEnvelope.Envelope.Cipher
import SealedEnvelope.Text.Hex
import SealedEnvelope.Wire.LengthValue

/-!
# `SealedEnvelope.CommandLine.Outline`: what an envelope shows without a key

The size of an envelope, and the elements in it. Of a ciphertext the initial vector can be
seen and how many blocks follow it.
-/

set_option autoImplicit false

namespace SealedEnvelope.CommandLine

/-- What an envelope shows without a key. -/
structure Outline where
  /-- The number of bytes of the envelope and of all that follows it. -/
  size : Nat
  elements : List Bytes
  deriving DecidableEq, Repr

namespace Outline

/-- The outline of an envelope. -/
def ofBytes (bytes : Bytes) : Except LengthValue.Error Outline := do
  let value ← LengthValue.decode bytes
  let elements ← LengthValue.readAll value
  return { size := bytes.length, elements := elements }

/-- The lines on a ciphertext. -/
def ciphertextLines (ciphertext : Bytes) : List String :=
  let length := "Ciphertext:      " ++ Numeral.render ciphertext.length ++ " bytes (+"
    ++ Numeral.render LengthValue.markLength ++ " prefix)"
  let blocks := (ciphertext.length - Cipher.blockLength) / Cipher.blockLength
  if ciphertext.length < Cipher.blockLength then ["", length]
  else
    ["", length, "IV:              " ++ Hex.encode (ciphertext.take Cipher.blockLength),
      "Blocks:          " ++ Numeral.render blocks]

/-- The line on a signature. -/
def signatureLine (signature : Bytes) : String :=
  "Signature:       " ++ Numeral.render signature.length ++ " bytes"

/-- The lines for a person to read. -/
def lines (outline : Outline) : List String :=
  ["DX Envelope", "===========",
    "Total Size:      " ++ Numeral.render outline.size ++ " bytes",
    "Elements:        " ++ Numeral.render outline.elements.length]
    ++ (outline.elements.take 1).flatMap ciphertextLines
    ++ ((outline.elements.drop 1).take 1).map signatureLine
    ++ if outline.elements.length = 2 then []
       else ["", "warning: expected 2 elements (ciphertext, signature)"]

end Outline

end SealedEnvelope.CommandLine
