import SealedEnvelope.Envelope.Error
import SealedEnvelope.Json.Reader

/-!
# `SealedEnvelope.Call.Error`: why a secured call fails

An error of a call is one of an envelope or one of what travels around it: the
transport, the JSON texts, the base64 texts, the fields of a message, the prekeys. An
error of an envelope keeps its kind.
-/

set_option autoImplicit false

namespace SealedEnvelope

/-- Why a secured call fails. -/
inductive CallError where
  /-- An envelope is not made or not opened. -/
  | envelope (error : EnvelopeError)
  /-- A request is not answered. -/
  | transport (reason : String)
  /-- A text is not the JSON that it should be. -/
  | json (reason : String)
  /-- A text is not base64. -/
  | base64 (reason : String)
  /-- A message lacks a field or has an unusable one. -/
  | missingField (name : String)
  /-- There is no such prekey, or no more. -/
  | prekeyNotFound
  /-- A login is answered with an empty session key. -/
  | emptySessionKey
  /-- A source of random bytes has run dry. -/
  | random
  deriving DecidableEq, Repr

namespace CallError

/-- The name of the kind of error. -/
def code : CallError → String
  | envelope error => error.code
  | transport _ => "TRANSPORT_ERROR"
  | json _ => "INVALID_JSON"
  | base64 _ => "DATA_CORRUPT"
  | missingField _ => "INVALID_REQUEST_FORMAT"
  | prekeyNotFound => "REFRESH_PREKEY"
  | emptySessionKey => "INVALID_SESSION_KEY"
  | random => "RANDOM_SOURCE_FAILED"

/-- The sentence that tells what is wrong. -/
def message : CallError → String
  | envelope error => "envelope error: " ++ error.message
  | transport reason => "transport error: " ++ reason
  | json reason => "json error: " ++ reason
  | base64 reason => "base64 error: " ++ reason
  | missingField name => "missing field: " ++ name
  | prekeyNotFound => "prekey not found or already used"
  | emptySessionKey => "login returned an empty session key"
  | random => "random source unavailable"

/-- The error behind this one, if it is one of an envelope. -/
def source : CallError → Option EnvelopeError
  | envelope error => some error
  | _ => none

/-- A result of envelopes as one of calls. -/
def onEnvelope {α : Type} (result : Except EnvelopeError α) : Except CallError α :=
  result.mapError envelope

/-- A result of the JSON reader as one of calls. -/
def onJson {α : Type} (result : Except JsonReader.Fault α) : Except CallError α :=
  result.mapError fun fault => json fault.message

end CallError

end SealedEnvelope
