import SealedEnvelope.Envelope.Cipher
import SealedEnvelope.Envelope.DataBlock
import SealedEnvelope.Envelope.Keys

/-!
# `SealedEnvelope.Envelope.Seal`: envelopes made and opened

An envelope is one element whose value is two: the ciphertext of a data block and the
signature of the ciphertext. It travels as hexadecimal text.

What is not covered by the signature is ignored: bytes after the envelope's element,
and elements after the signature. The signature is checked before anything is decrypted,
so that without a valid one no answer depends on the key. Then come the time, the prekey
and the hash of the data block, in this order. A block may be younger than the clock
that it is opened by, but not more than five minutes older.
-/

set_option autoImplicit false

namespace SealedEnvelope.Envelope

/-- The number of seconds for which an envelope can be opened. -/
def lifetime : Int := 300

/-- The ciphertext of a data block and its signature as one element. -/
def sealBlock (s : Suite) (block : DataBlock) (signing : SigningKey) (key : Bytes) :
    Drawing EnvelopeError Bytes := do
  let message ← block.encode
  let ciphertext ← Cipher.encrypt s key message
  let signature := signing.sign s ciphertext
  let value ← EnvelopeError.onWire (LengthValue.encodeAll [ciphertext, signature.val])
  EnvelopeError.onWire (LengthValue.encode value)

/-- The envelope of a payload: a list of byte strings for a prekey, stamped with the
present time. -/
def pack (s : Suite) (now : Instant) (prekey : String) (signing : SigningKey) (key : Bytes)
    (payload : List Bytes) : Drawing EnvelopeError String := do
  let combined ← EnvelopeError.onWire (LengthValue.encodeAll payload)
  let data ← EnvelopeError.onWire (LengthValue.encode combined)
  let block ← DataBlock.create s now data
  let envelope ← sealBlock s (block.setPrekey prekey) signing key
  return Hex.encode envelope

/-- What an envelope is opened with. -/
structure Opening where
  /-- The prekey for which the envelope must have been made. -/
  prekey : String
  /-- The key of the side that must have signed it. -/
  peer : VerifyingKey
  /-- The key to decrypt it with. -/
  key : Bytes
  /-- The clock that its age is told by. -/
  now : Instant
  /-- Whether the signature is left unchecked. -/
  skipVerify : Bool := false

namespace Opening

/-- The ciphertext in an envelope, once its signature has been checked. -/
def ciphertext (s : Suite) (o : Opening) (text : String) : Except EnvelopeError Bytes := do
  let bytes ← readHex text
  let value ← EnvelopeError.onWire (LengthValue.decode bytes)
  let elements ← EnvelopeError.onWire (LengthValue.readAll value)
  match elements with
  | ciphertext :: signature :: _ =>
    if o.skipVerify || o.peer.verifies s ciphertext signature then return ciphertext
    else throw .invalidSignature
  | _ => throw .invalidData

/-- The payload of a data block, once its time, prekey and hash have been checked. -/
def payload (s : Suite) (o : Opening) (block : DataBlock) : Except EnvelopeError (List Bytes) := do
  let stamped ← block.timestamp
  -- A block from the future has a negative age and passes.
  let age := o.now.since stamped
  if lifetime * nanosPerSecond < age then
    throw (.timeExpired (age.tdiv nanosPerSecond))
  if block.prekey ≠ Utf8.encode o.prekey then
    throw .invalidPrekey
  if ¬ block.hashMatches s then
    throw .invalidDataHash
  let combined ← EnvelopeError.onWire (LengthValue.decode block.data)
  EnvelopeError.onWire (LengthValue.readAll combined)

/-- The payload of an envelope. -/
def unpack (s : Suite) (o : Opening) (text : String) : Except EnvelopeError (List Bytes) := do
  let ciphertext ← o.ciphertext s text
  let message ← Cipher.decrypt s o.key ciphertext
  let block ← DataBlock.decode message
  o.payload s block

end Opening

end SealedEnvelope.Envelope
