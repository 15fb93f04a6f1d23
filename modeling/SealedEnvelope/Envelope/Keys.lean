import SealedEnvelope.Crypto.Suite
import SealedEnvelope.Entropy
import SealedEnvelope.Envelope.Element

/-!
# `SealedEnvelope.Envelope.Keys`: signing keys and exchange keys

Each side signs with a key pair of its own and agrees on secrets with others. Public
keys travel as hexadecimal text, which may stand between blanks. A public signing key
must encode a point of its curve, and an agreement on zero is refused, because it shows
that the other side's key did not contribute to it.
-/

set_option autoImplicit false

namespace SealedEnvelope

/-- A public signing key. -/
structure VerifyingKey where
  bytes : FixedBytes 32
  deriving DecidableEq, Repr

namespace VerifyingKey

/-- The public signing key that a byte string encodes. -/
def ofBytes (s : Suite) (bytes : Bytes) : Except EnvelopeError VerifyingKey :=
  match FixedBytes.ofBytes? 32 bytes with
  | none => .error (.invalidKey (.verifyingLength bytes.length))
  | some key => if s.isPoint key then .ok ⟨key⟩ else .error (.invalidKey .notAPoint)

/-- The public signing key that a text spells. -/
def ofHex (s : Suite) (text : String) : Except EnvelopeError VerifyingKey := do
  let bytes ← readHex text
  ofBytes s bytes

/-- The key as text. -/
def hex (key : VerifyingKey) : String := Hex.encode key.bytes.val

/-- Whether a byte string is a signature of a message under the key. -/
def verifies (s : Suite) (key : VerifyingKey) (message signature : Bytes) : Bool :=
  match FixedBytes.ofBytes? 64 signature with
  | none => false
  | some signature => s.verify key.bytes message signature

end VerifyingKey

/-- A signing key, given by its seed. -/
structure SigningKey where
  seed : FixedBytes 32
  deriving DecidableEq, Repr

namespace SigningKey

/-- The public half. -/
def verifyingKey (s : Suite) (key : SigningKey) : VerifyingKey := ⟨s.signingPublic key.seed⟩

/-- The signature of a message. -/
def sign (s : Suite) (key : SigningKey) (message : Bytes) : FixedBytes 64 := s.sign key.seed message

/-- A fresh key. The program has no error for a source that has run dry here, and stops instead; here
it is `.random`. -/
def draw : Drawing EnvelopeError SigningKey := do
  let seed ← Drawing.bytes .random 32
  return ⟨seed⟩

/-- The key that a byte string stands for: a seed, or a seed followed by the public key
that belongs to it. -/
def ofBytes (s : Suite) (bytes : Bytes) : Except EnvelopeError SigningKey :=
  if bytes.length = 32 then
    .ok ⟨FixedBytes.ofPrefix 32 bytes⟩
  else if bytes.length = 64 then
    let key : SigningKey := ⟨FixedBytes.ofPrefix 32 bytes⟩
    let half := FixedBytes.ofPrefix 32 (bytes.drop 32)
    if s.isPoint half ∧ (key.verifyingKey s).bytes = half then .ok key
    else .error (.invalidKey .signingHalves)
  else
    .error (.invalidKey (.signingLength bytes.length))

end SigningKey

/-- A secret that two sides agree on. -/
abbrev SharedSecret := FixedBytes 32

/-- An exchange key, given by its secret. -/
structure ExchangeKey where
  secret : FixedBytes 32
  deriving DecidableEq, Repr

namespace ExchangeKey

/-- A fresh key, or `.random` where the program stops, as for a `SigningKey`. -/
def draw : Drawing EnvelopeError ExchangeKey := do
  let secret ← Drawing.bytes .random 32
  return ⟨secret⟩

/-- The public half. -/
def publicKey (s : Suite) (key : ExchangeKey) : FixedBytes 32 := s.exchangePublic key.secret

/-- The public half as text. -/
def publicHex (s : Suite) (key : ExchangeKey) : String := Hex.encode (key.publicKey s).val

/-- The secret agreed on with the owner of a public exchange key. -/
def agree (s : Suite) (key : ExchangeKey) (peer : Bytes) : Except EnvelopeError SharedSecret :=
  match FixedBytes.ofBytes? 32 peer with
  | none => .error (.invalidKey (.exchangeLength peer.length))
  | some peer =>
    let shared := s.exchange key.secret peer
    if shared.val = List.replicate 32 0 then .error (.invalidKey .lowOrder) else .ok shared

/-- The secret agreed on with the owner of the public exchange key that a text spells. -/
def agreeHex (s : Suite) (key : ExchangeKey) (peer : String) : Except EnvelopeError SharedSecret := do
  let bytes ← readHex peer
  key.agree s bytes

end ExchangeKey

end SealedEnvelope
