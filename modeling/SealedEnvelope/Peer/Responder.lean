import SealedEnvelope.Call.Body
import SealedEnvelope.Call.Payload
import SealedEnvelope.Peer.PrekeyStore

/-!
# `SealedEnvelope.Peer.Responder`: sealed requests opened and answered

A sealed request names a prekey. Opening the request uses the prekey up, whether or not
the envelope can be opened; the session of the prekey then seals the reply.
-/

set_option autoImplicit false

namespace SealedEnvelope.Responder

/-- Opens a sealed request with the session of its prekey. -/
def receive (s : Suite) (clock : Clock) (store : PrekeyStore) (request : SealedRequest) :
    Except CallError (Session × List Bytes) × PrekeyStore :=
  let (taken, store) := store.take clock.steady request.index
  let opened := do
    let session ← taken
    let payload ← CallError.onEnvelope (session.unpack s clock.wall request.envelope)
    return (session, payload)
  (opened, store)

/-- A secured request that has been opened. -/
structure Opened where
  session : Session
  headers : Headers
  body : JsonValue

/-- Opens a sealed request and reads the headers and the body in it. -/
def receiveRequest (s : Suite) (clock : Clock) (store : PrekeyStore) (request : SealedRequest) :
    Except CallError Opened × PrekeyStore :=
  let (received, store) := receive s clock store request
  let opened := do
    let (session, payload) ← received
    let (headers, body) ← Payload.decodeRequest payload
    return { session := session, headers := headers, body := body }
  (opened, store)

/-- Seals a payload for the other side. -/
def reply (s : Suite) (now : Instant) (session : Session) (payload : List Bytes) :
    Drawing CallError SealedReply := do
  let envelope ← Drawing.mapError .envelope (session.pack s now payload)
  return { envelope := envelope }

/-- Seals a response for the other side. -/
def replyWith (s : Suite) (now : Instant) (session : Session) (response : HttpResponse) :
    Drawing CallError SealedReply :=
  reply s now session (Payload.encodeResponse response)

end SealedEnvelope.Responder
