import SealedEnvelope.Call.Error
import SealedEnvelope.Json.Record
import SealedEnvelope.Json.Writer

/-!
# `SealedEnvelope.Call.Login`: what a login leaves a client with

A peer grants a login with a JSON object: a `session_key`, and, if it likes, a `user_id`.
The user may be named by any JSON value; one that is no string is kept as its text.
-/

set_option autoImplicit false

namespace SealedEnvelope

/-- What a login leaves a client with. -/
structure Login where
  sessionKey : String
  userId : String
  deriving DecidableEq, Repr

namespace Login

/-- The text by which a value names a user. -/
def userText : JsonValue → String
  | .string name => name
  | .null => ""
  | value => value.text

/-- What grants a login. -/
def fields : List JsonReader.Field := [.text "session_key", .optional "user_id"]

/-- The login that a payload element grants. -/
def read (element : Bytes) : Except CallError Login := do
  match ← CallError.onJson (JsonReader.whole (JsonReader.record fields) element) with
  | [.string sessionKey, user] =>
    if sessionKey.isEmpty then throw .emptySessionKey
    return { sessionKey := sessionKey, userId := userText user }
  | _ => throw (.json JsonReader.Fault.wrongShape.message)

end Login

end SealedEnvelope
