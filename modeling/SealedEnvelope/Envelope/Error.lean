import SealedEnvelope.Text.Numeral
import SealedEnvelope.Wire.LengthValue

/-!
# `SealedEnvelope.Envelope.Error`: why an envelope is not made or not opened

Each error is a cause. `code` gives the name of its kind, by which programs tell errors
apart, and `message` the sentence that a person reads.
-/

set_option autoImplicit false

namespace SealedEnvelope

/-- Why a ciphertext does not decrypt. -/
inductive DecryptionFault where
  /-- It is shorter than an initial vector and one block. -/
  | tooShort
  /-- It does not consist of whole blocks. -/
  | partialBlock
  /-- It does not end in the padding of a message. -/
  | padding
  /-- Another reason, in words. -/
  | other (reason : String)
  deriving DecidableEq, Repr

/-- The reason in words. -/
def DecryptionFault.reason : DecryptionFault → String
  | tooShort => "ciphertext too short"
  | partialBlock => "ciphertext is not a whole number of blocks"
  | padding => "invalid padding"
  | other reason => reason

/-- Why a byte string is not a key. -/
inductive KeyFault where
  /-- A secret signing key of so many bytes. -/
  | signingLength (length : Nat)
  /-- A signing pair whose public half is not that of its secret half. -/
  | signingHalves
  /-- A public signing key of so many bytes. -/
  | verifyingLength (length : Nat)
  /-- A public signing key that encodes no point. -/
  | notAPoint
  /-- A public exchange key of so many bytes. -/
  | exchangeLength (length : Nat)
  /-- A public exchange key on which every secret agrees on zero. -/
  | lowOrder
  /-- A cipher key of so many bytes. -/
  | cipherLength (length : Nat)
  /-- Another reason, in words. -/
  | other (reason : String)
  deriving DecidableEq, Repr

/-- The reason in words. -/
def KeyFault.reason : KeyFault → String
  | signingLength n => "ed25519 secret key must be 32 or 64 bytes, got " ++ Numeral.render n
  | signingHalves => "ed25519 public half does not match seed"
  | verifyingLength n => "ed25519 public key must be 32 bytes, got " ++ Numeral.render n
  | notAPoint => "ed25519 public key is not a valid point"
  | exchangeLength n => "x25519 public key must be 32 bytes, got " ++ Numeral.render n
  | lowOrder => "x25519 public key has low order"
  | cipherLength n => "AES key must be 16, 24 or 32 bytes, got " ++ Numeral.render n
  | other reason => reason

/-- Why an envelope is not made or not opened. -/
inductive EnvelopeError where
  /-- A value cannot be written, or an element cannot be read. -/
  | wire (fault : LengthValue.Error)
  /-- A value of a kind that has no text. -/
  | unsupportedType (reason : String)
  /-- A text that should be hexadecimal is not. -/
  | invalidHex
  /-- An envelope without a ciphertext and a signature. -/
  | invalidData
  /-- A data block of so many fields, which are too few. -/
  | malformedDataBlock (fields : Nat)
  /-- A signature that does not verify. -/
  | invalidSignature
  /-- A ciphertext that does not decrypt. -/
  | decryption (fault : DecryptionFault)
  /-- A data block whose hash is not that of its data. -/
  | invalidDataHash
  /-- A data block for another prekey. -/
  | invalidPrekey
  /-- A data block whose time cannot be read. -/
  | invalidTimestamp
  /-- A data block that is too old, by its age in whole seconds. -/
  | timeExpired (seconds : Int)
  /-- A byte string that is no key. -/
  | invalidKey (fault : KeyFault)
  /-- A message that cannot be encrypted. -/
  | encryption (reason : String)
  /-- A source of random bytes that has run dry. -/
  | random
  deriving DecidableEq, Repr

namespace EnvelopeError

/-- The name of the kind of error. -/
def code : EnvelopeError → String
  | wire (.truncated _ _) => "TRUNCATED_DATA"
  | wire (.tooLarge _) => "ARRAY_SIZE_TOO_LARGE"
  | unsupportedType _ => "UNSUPPORTED_DATA_TYPE"
  | invalidHex => "INVALID_HEX"
  | invalidData => "INVALID_DATA"
  | malformedDataBlock _ => "MALFORMED_DATA_BLOCK"
  | invalidSignature => "INVALID_SIGNATURE"
  | decryption _ => "DECRYPTION_FAILED"
  | invalidDataHash => "INVALID_DATA_HASH"
  | invalidPrekey => "INVALID_PREKEY"
  | invalidTimestamp => "INVALID_TIMESTAMP_DATA"
  | timeExpired _ => "TIME_EXPIRED"
  | invalidKey _ => "INVALID_KEY"
  | encryption _ => "ENCRYPTION_FAILED"
  | random => "RANDOM_SOURCE_FAILED"

/-- The sentence that tells what is wrong. -/
def message : EnvelopeError → String
  | wire (.truncated needed available) =>
    "truncated data: need " ++ Numeral.render needed ++ " bytes, have " ++ Numeral.render available
  | wire (.tooLarge length) => "LV value too large: " ++ Numeral.render length ++ " bytes"
  | unsupportedType reason => "unsupported data type: " ++ reason
  | invalidHex => "invalid hex string"
  | invalidData => "invalid envelope data"
  | malformedDataBlock fields =>
    "malformed data block: expected 5 fields, found " ++ Numeral.render fields
  | invalidSignature => "invalid signature"
  | decryption fault => "decryption failed: " ++ fault.reason
  | invalidDataHash => "data hash mismatch"
  | invalidPrekey => "prekey mismatch"
  | invalidTimestamp => "invalid block timestamp"
  | timeExpired seconds => "block expired (" ++ Numeral.renderInt seconds ++ "s old)"
  | invalidKey fault => "invalid key: " ++ fault.reason
  | encryption reason => "encryption failed: " ++ reason
  | random => "random source unavailable"

/-- A result of the wire format as one of envelopes. -/
def onWire {α : Type} (result : Except LengthValue.Error α) : Except EnvelopeError α :=
  result.mapError wire

end EnvelopeError

end SealedEnvelope
