import SealedEnvelope.Json.Reader
import SealedEnvelope.Json.Writer

/-!
# `SealedEnvelope.Http.Message`: requests and responses

The part of HTTP that secured calls use: a request posts a JSON body to an address, and
a response has a status, headers and any body. Headers map names to values; they are a
JSON object of strings when they travel inside an envelope.
-/

set_option autoImplicit false

namespace SealedEnvelope

/-- Headers, in the order of their names. -/
structure Headers where
  entries : List (String × String)
  ascending : Keyed.Ascending entries

namespace Headers

/-- No headers. -/
def empty : Headers := ⟨[], List.Pairwise.nil⟩

/-- The headers with one more, which replaces one of the same name. -/
def insert (headers : Headers) (name value : String) : Headers :=
  ⟨Keyed.insert name value headers.entries, headers.ascending.insert name value⟩

/-- The headers with these entries, of which a later one replaces an earlier one. -/
def ofList (entries : List (String × String)) : Headers :=
  entries.foldl (fun headers entry => headers.insert entry.1 entry.2) empty

/-- The value of a header. -/
def get? (headers : Headers) (name : String) : Option String := Keyed.find? name headers.entries

@[ext] theorem ext {a b : Headers} (h : a.entries = b.entries) : a = b := by
  cases a
  cases b
  cases h
  rfl

instance : DecidableEq Headers := fun a b =>
  if h : a.entries = b.entries then isTrue (ext h) else isFalse fun h' => h (congrArg entries h')

/-- The headers as a JSON object. -/
def toJson (headers : Headers) : JsonValue :=
  .object (headers.entries.map fun entry => (entry.1, .string entry.2))

/-- Reads headers from a JSON object of strings. -/
def reading : JsonReader.Reading Headers := fun text =>
  match JsonReader.skipBlanks text with
  | 0x7B :: rest =>
    let member := fun (found : Headers) name =>
      .ok fun text => (JsonReader.string text).map fun value => (found.insert name value.1, value.2)
    JsonReader.members JsonReader.stringText member (rest.length + 1) true empty rest
  | 0x5B :: _ => .error .wrongShape
  | text => do
    let _ ← JsonReader.scalar JsonReader.strict text
    throw .wrongShape

end Headers

/-- A request that posts JSON. -/
structure HttpRequest where
  url : String
  headers : Headers
  body : Option JsonValue

/-- A response. -/
structure HttpResponse where
  status : UInt16
  headers : Headers
  body : Bytes
  deriving DecidableEq

namespace HttpResponse

/-- Whether the response says that all is well. -/
def isOk (response : HttpResponse) : Bool := response.status == 200

/-- The body as text, with U+FFFD for what is no text. -/
def text (response : HttpResponse) : String := Utf8.decodeLossy response.body

/-- The JSON value that the body holds. -/
def json (response : HttpResponse) : Except JsonReader.Fault JsonValue := JsonValue.read response.body

end HttpResponse

end SealedEnvelope
