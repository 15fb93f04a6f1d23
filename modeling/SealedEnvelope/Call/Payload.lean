import SealedEnvelope.Call.Error
import SealedEnvelope.Http.Message
import SealedEnvelope.Text.Base64

/-!
# `SealedEnvelope.Call.Payload`: what a secured call seals

The payload of a request is a header map and a JSON body; that of a response is a
status, a header map and any body. Each is an element of base64 text: JSON text for the
headers and the body of a request, eight bytes with the most significant first for the
status, and the bytes themselves for the body of a response.

A reader accepts more elements than it needs, an empty text for `null` as the body of a
request, and an empty text for no headers in a response.
-/

set_option autoImplicit false

namespace SealedEnvelope.Payload

/-- The bytes that an element holds as base64 text. -/
def unwrap (element : Bytes) : Except CallError Bytes :=
  match Base64.decode? element with
  | some bytes => .ok bytes
  | none => .error (.base64 "not canonical base64 text")

/-- The element at a place in a payload. -/
def element (payload : List Bytes) (place : Nat) (name : String) : Except CallError Bytes :=
  match payload[place]? with
  | some bytes => .ok bytes
  | none => .error (.missingField name)

/-- The payload of a request. -/
def encodeRequest (headers : Headers) (body : JsonValue) : List Bytes :=
  [Base64.encode headers.toJson.bytes, Base64.encode body.bytes]

/-- The headers and the body of the request in a payload. -/
def decodeRequest (payload : List Bytes) : Except CallError (Headers × JsonValue) := do
  let headers ← element payload 0 "header"
  let body ← element payload 1 "body"
  let headers ← unwrap headers
  let headers ← CallError.onJson (JsonReader.whole Headers.reading headers)
  let body ← unwrap body
  if body.isEmpty then return (headers, .null)
  let body ← CallError.onJson (JsonValue.read body)
  return (headers, body)

/-- The payload of a response. -/
def encodeResponse (response : HttpResponse) : List Bytes :=
  [Base64.encode (bigEndian 8 response.status.toNat), Base64.encode response.headers.toJson.bytes,
    Base64.encode response.body]

/-- The status that eight bytes spell. -/
def readStatus (bytes : Bytes) : Except CallError UInt16 :=
  if bytes.length = 8 ∧ ofBigEndian bytes < UInt16.size then .ok (UInt16.ofNat (ofBigEndian bytes))
  else .error (.missingField "status")

/-- The response in a payload. -/
def decodeResponse (payload : List Bytes) : Except CallError HttpResponse := do
  let status ← element payload 0 "status"
  let headers ← element payload 1 "header"
  let body ← element payload 2 "body"
  let status ← unwrap status
  let status ← readStatus status
  let headers ← unwrap headers
  let headers ←
    if headers.isEmpty then pure Headers.empty
    else CallError.onJson (JsonReader.whole Headers.reading headers)
  let body ← unwrap body
  return { status := status, headers := headers, body := body }

end SealedEnvelope.Payload
