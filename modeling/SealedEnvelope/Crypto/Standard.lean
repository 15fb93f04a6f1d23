import SealedEnvelope.Crypto.Suite
import SealedEnvelope.Crypto.Sha2
import SealedEnvelope.Crypto.Aes
import SealedEnvelope.Crypto.Ed25519
import SealedEnvelope.Crypto.X25519

/-!
# `SealedEnvelope.Crypto.Standard`: the suite in use

SHA-256, SHA-512, AES, Ed25519 and X25519.
-/

set_option autoImplicit false

namespace SealedEnvelope

/-- The suite in use. -/
def Suite.standard : Suite where
  shortHash := Sha2.sha256
  hash := Sha2.sha512
  encryptBlock := Aes.encryptBlock
  decryptBlock := Aes.decryptBlock
  signingPublic := Ed25519.publicKey
  sign := Ed25519.sign
  isPoint := Ed25519.isPoint
  verify := Ed25519.verify
  exchangePublic := X25519.publicKey
  exchange := X25519.exchange

end SealedEnvelope
