import SealedEnvelope.Bytes

/-!
# `SealedEnvelope.Crypto.Suite`: the primitives that envelopes are made of

Everything above this module takes its cryptography from a `Suite`: two hash functions,
a block cipher, a signature scheme and a key agreement, each as a plain function on
byte strings of fixed length. What a caller needs of them (a block deciphers to what was
enciphered, a signature verifies, the agreement commutes) is stated where it is needed
and about the suite at hand.

`SealedEnvelope.Crypto.Standard` is the suite in use.
-/

set_option autoImplicit false

namespace SealedEnvelope

/-- A block of the block cipher. -/
abbrev Block := FixedBytes 16

/-- A key of the block cipher, of 16, 24 or 32 bytes. -/
abbrev BlockKey := { key : Bytes // key.length = 16 ∨ key.length = 24 ∨ key.length = 32 }

/-- A byte string as a key of the block cipher, if its length is that of one. -/
def BlockKey.ofBytes? (key : Bytes) : Option BlockKey :=
  if h : key.length = 16 ∨ key.length = 24 ∨ key.length = 32 then some ⟨key, h⟩ else none

/-- The primitives that envelopes are made of. -/
structure Suite where
  /-- The hash under which login tokens are kept. -/
  shortHash : Bytes → FixedBytes 32
  /-- The hash that a data block carries of its data. -/
  hash : Bytes → FixedBytes 64
  /-- Enciphers one block. -/
  encryptBlock : BlockKey → Block → Block
  /-- Deciphers one block. -/
  decryptBlock : BlockKey → Block → Block
  /-- The public signing key of a secret seed. -/
  signingPublic : FixedBytes 32 → FixedBytes 32
  /-- The signature of a message under a secret seed. -/
  sign : FixedBytes 32 → Bytes → FixedBytes 64
  /-- Whether a byte string encodes a public signing key. -/
  isPoint : FixedBytes 32 → Bool
  /-- Whether a signature of a message verifies under a public key. -/
  verify : FixedBytes 32 → Bytes → FixedBytes 64 → Bool
  /-- The public exchange key of a secret. -/
  exchangePublic : FixedBytes 32 → FixedBytes 32
  /-- The secret that a secret and the other side's public exchange key agree on. -/
  exchange : FixedBytes 32 → FixedBytes 32 → FixedBytes 32

end SealedEnvelope
