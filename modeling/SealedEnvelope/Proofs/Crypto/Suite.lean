import SealedEnvelope.Crypto.Suite

/-!
# `SealedEnvelope.Proofs.Crypto.Suite`: what is asked of the primitives

Envelopes and handshakes work for every suite whose primitives do what they are for. Each
property is a proposition about the suite and the keys at hand, so that a theorem asks for
what it uses and for no more.
-/

set_option autoImplicit false

namespace SealedEnvelope.Suite

/-- Deciphering undoes enciphering, under every key. -/
def Deciphers (s : Suite) : Prop :=
  ∀ (key : BlockKey) (block : Block), s.decryptBlock key (s.encryptBlock key block) = block

/-- What is signed under a seed verifies under the public key of the seed. -/
def AcceptsOwn (s : Suite) (seed : FixedBytes 32) : Prop :=
  ∀ message : Bytes, s.verify (s.signingPublic seed) message (s.sign seed message) = true

/-- Nothing verifies under a public key but messages of a list. -/
def AcceptsOnly (s : Suite) (key : FixedBytes 32) (signed : List Bytes) : Prop :=
  ∀ (message : Bytes) (signature : FixedBytes 64), s.verify key message signature = true →
    message ∈ signed

/-- Two secrets agree on the same with each other's public exchange key. -/
def Agrees (s : Suite) (secret secret' : FixedBytes 32) : Prop :=
  s.exchange secret (s.exchangePublic secret') = s.exchange secret' (s.exchangePublic secret)

end SealedEnvelope.Suite
