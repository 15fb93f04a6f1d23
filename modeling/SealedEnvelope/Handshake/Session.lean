import SealedEnvelope.Envelope.Seal
import SealedEnvelope.Text.Quoted

/-!
# `SealedEnvelope.Handshake.Session`: what a handshake leaves behind

A handshake gives both sides the same two secrets. The first encrypts what the
initiator sends, and the second what the responder sends; each side signs with its own
key. A session is a plain value, and each exchange has one of its own.
-/

set_option autoImplicit false

namespace SealedEnvelope

/-- The part that a side has in a handshake. -/
inductive Role where
  | initiator
  | responder
  deriving DecidableEq, Repr

/-- The name of a role. -/
def Role.name : Role → String
  | initiator => "Initiator"
  | responder => "Responder"

/-- What a handshake leaves one side with. -/
structure Session where
  role : Role
  /-- The index of the prekey that the session was made with. -/
  index : String
  signing : SigningKey
  peer : VerifyingKey
  /-- The secret for what the initiator sends. -/
  first : SharedSecret
  /-- The secret for what the responder sends. -/
  second : SharedSecret
  deriving DecidableEq, Repr

namespace Session

/-- The key for what this side sends. -/
def sealingKey (session : Session) : SharedSecret :=
  match session.role with
  | .initiator => session.first
  | .responder => session.second

/-- The key for what this side receives. -/
def openingKey (session : Session) : SharedSecret :=
  match session.role with
  | .initiator => session.second
  | .responder => session.first

/-- The envelope of a payload for the other side. -/
def pack (s : Suite) (now : Instant) (session : Session) (payload : List Bytes) :
    Drawing EnvelopeError String :=
  Envelope.pack s now session.index session.signing session.sealingKey.val payload

/-- What an envelope from the other side is opened with. -/
def opening (session : Session) (now : Instant) : Envelope.Opening :=
  { prekey := session.index, peer := session.peer, key := session.openingKey.val, now := now }

/-- The payload of an envelope from the other side. -/
def unpack (s : Suite) (now : Instant) (session : Session) (text : String) :
    Except EnvelopeError (List Bytes) :=
  (session.opening now).unpack s text

/-- The session for a person to see: its role and its index, and no key. -/
def summary (session : Session) : String :=
  "Session \x7b role: " ++ session.role.name ++ ", prekey_index: " ++ Quoted.text session.index
    ++ ", .. \x7d"

end Session

end SealedEnvelope
