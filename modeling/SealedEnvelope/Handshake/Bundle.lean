import SealedEnvelope.Handshake.Session

/-!
# `SealedEnvelope.Handshake.Bundle`: the handshake

The initiator makes an *offer* of three public keys, one to verify its signatures and
two to agree on secrets with. The responder answers with an index and three public keys
of its own. Both then hold the same two secrets.

Both sides read the other's keys in one way, `Bundle.agree`: the signing key first, and
then the two exchange keys in order.
-/

set_option autoImplicit false

namespace SealedEnvelope

/-- The public keys of the initiator, as text. -/
structure Offer where
  signing : String
  first : String
  second : String
  deriving DecidableEq, Repr

/-- The index of the prekey and the public keys of the responder, as text. -/
structure Answer where
  index : String
  signing : String
  first : String
  second : String
  deriving DecidableEq, Repr

/-- The keys that one side makes for one handshake. -/
structure Bundle where
  signing : SigningKey
  first : ExchangeKey
  second : ExchangeKey
  deriving DecidableEq, Repr

namespace Bundle

/-- Fresh keys. The program does not expect a source to run dry here and stops if it does; here that is
the error `.random`. -/
def draw : Drawing EnvelopeError Bundle := do
  let signing ← SigningKey.draw
  let first ← ExchangeKey.draw
  let second ← ExchangeKey.draw
  return { signing := signing, first := first, second := second }

/-- What the initiator sends. -/
def offer (s : Suite) (bundle : Bundle) : Offer where
  signing := (bundle.signing.verifyingKey s).hex
  first := bundle.first.publicHex s
  second := bundle.second.publicHex s

/-- The session of one side, given the public keys of the other. -/
def agree (s : Suite) (bundle : Bundle) (role : Role) (index signing first second : String) :
    Except EnvelopeError Session := do
  let peer ← VerifyingKey.ofHex s signing
  let first ← bundle.first.agreeHex s first
  let second ← bundle.second.agreeHex s second
  return { role := role, index := index, signing := bundle.signing, peer := peer,
           first := first, second := second }

/-- The responder's half of the handshake: what it sends, and its session. -/
def respond (s : Suite) (bundle : Bundle) (index : String) (offer : Offer) :
    Except EnvelopeError (Answer × Session) := do
  let session ← bundle.agree s .responder index offer.signing offer.first offer.second
  let own := bundle.offer s
  return ({ index := index, signing := own.signing, first := own.first, second := own.second },
    session)

/-- The initiator's half of the handshake: its session. -/
def complete (s : Suite) (bundle : Bundle) (answer : Answer) : Except EnvelopeError Session :=
  bundle.agree s .initiator answer.index answer.signing answer.first answer.second

end Bundle

end SealedEnvelope
