import SealedEnvelope.Crypto.Suite
import SealedEnvelope.Entropy
import SealedEnvelope.Envelope.Error
import SealedEnvelope.Text.Blank
import SealedEnvelope.Text.Utf8
import SealedEnvelope.Time.Rfc3339
import SealedEnvelope.Updating

/-!
# `SealedEnvelope.Envelope.DataBlock`: what an envelope encrypts

A data block has five fields: the time at which it was made, a nonce, the index of the
prekey under which it is sent, the data, and the hash of the data. On the wire it is one
element whose value is the list of the five; more fields after them are ignored.

The time is written as text. It is read as text or, where the field has exactly eight
bytes, as a signed number of nanoseconds since the start of 1970.
-/

set_option autoImplicit false

namespace SealedEnvelope

/-- What an envelope encrypts. -/
structure DataBlock where
  time : Bytes := []
  nonce : Bytes := []
  prekey : Bytes := []
  data : Bytes := []
  dataHash : Bytes := []
  deriving DecidableEq, Repr

namespace DataBlock

/-- The block with another time. -/
def setTime (block : DataBlock) (at_ : Instant) : DataBlock :=
  { block with time := Utf8.encode (Rfc3339.writeMillis at_) }

/-- The block with another prekey index. -/
def setPrekey (block : DataBlock) (index : String) : DataBlock :=
  { block with prekey := Utf8.encode index }

/-- The block with other data and their hash. -/
def setData (s : Suite) (block : DataBlock) (data : Bytes) : DataBlock :=
  { block with data := data, dataHash := (s.hash data).val }

/-- Gives a block a fresh nonce of 32 bytes. -/
def drawNonce : Updating DataBlock (StateM Entropy) EnvelopeError Unit := do
  let nonce ← Updating.lift (Drawing.bytes .random 32)
  modify fun block => { block with nonce := nonce.val }

/-- A block of the present time with a fresh nonce, for no prekey. -/
def create (s : Suite) (now : Instant) (data : Bytes) : Drawing EnvelopeError DataBlock :=
  Updating.execute (do
    modify fun block => block.setTime now
    drawNonce
    modify fun block => block.setData s data) {}

/-- The prekey index as text, with U+FFFD for what is no text. -/
def prekeyText (block : DataBlock) : String := Utf8.decodeLossy block.prekey

/-- Whether the block carries the hash of its data. -/
def hashMatches (s : Suite) (block : DataBlock) : Bool := (s.hash block.data).val == block.dataHash

/-- The instant that a time field spells, if it does. -/
def readTime? (time : Bytes) : Option Instant :=
  match (Utf8.decode? time).bind fun text => Rfc3339.read? (Text.trim text) with
  | some t => some t
  | none =>
    if time.length = 8 then
      some (Instant.ofUnixNanos (Int.bmod (ofBigEndian time) UInt64.size))
    else
      none

/-- The time at which the block was made. -/
def timestamp (block : DataBlock) : Except EnvelopeError Instant :=
  match readTime? block.time with
  | some t => .ok t
  | none => .error .invalidTimestamp

/-- The fields in the order in which they stand. -/
def fields (block : DataBlock) : List Bytes :=
  [block.time, block.nonce, block.prekey, block.data, block.dataHash]

/-- The fields as elements one after another. -/
def value (block : DataBlock) : Except EnvelopeError Bytes :=
  EnvelopeError.onWire (LengthValue.encodeAll block.fields)

/-- The element that the block is on the wire. -/
def encode (block : DataBlock) : Except EnvelopeError Bytes := do
  let value ← block.value
  EnvelopeError.onWire (LengthValue.encode value)

/-- The block whose element a byte string begins with. -/
def decode (bytes : Bytes) : Except EnvelopeError DataBlock := do
  let value ← EnvelopeError.onWire (LengthValue.decode bytes)
  let fields ← EnvelopeError.onWire (LengthValue.readAll value)
  match fields with
  | time :: nonce :: prekey :: data :: dataHash :: _ =>
    return { time := time, nonce := nonce, prekey := prekey, data := data, dataHash := dataHash }
  | fewer => throw (.malformedDataBlock fewer.length)

end DataBlock

end SealedEnvelope
