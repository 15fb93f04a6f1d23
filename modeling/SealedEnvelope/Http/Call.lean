import SealedEnvelope.Http.Target
import SealedEnvelope.Http.Token
import SealedEnvelope.Text.Utf8

/-!
# `SealedEnvelope.Http.Call`: a request as a server gets it

A call has a method, a target, headers and a body. `HttpCall.ofParts?` makes one of its
parts, and refuses parts that no request line or header line can carry.
-/

set_option autoImplicit false

namespace SealedEnvelope

/-- A call over HTTP. Header names are compared without regard to case. -/
structure HttpCall where
  method : String
  target : RequestTarget
  headers : List (String × Bytes)
  body : Bytes

namespace HttpCall

/-- The largest number of bytes of the name of a header. -/
def maxNameLength : Nat := 65535

/-- Whether a text is the name of a header. -/
def isHeaderName (name : String) : Bool :=
  Http.isToken (Utf8.encode name) && name.utf8ByteSize ≤ maxNameLength

/-- Whether bytes may be the value of a header: they hold no control but the tab. -/
def isHeaderValue (value : Bytes) : Bool :=
  value.all fun b => (0x20 ≤ b.toNat && b.toNat != 0x7F) || b == 0x09

/-- The call with these parts, if a request can carry them. -/
def ofParts? (method target : String) (headers : List (String × Bytes)) (body : Bytes) :
    Option HttpCall :=
  if Http.isToken (Utf8.encode method)
      && headers.all (fun entry => isHeaderName entry.1 && isHeaderValue entry.2) then
    (RequestTarget.ofText? target).map fun target =>
      { method := method, target := target, headers := headers, body := body }
  else none

/-- The value of the first header of a name, if all of its bytes can be seen. -/
def headerText? (call : HttpCall) (name : String) : Option String :=
  match call.headers.find? fun entry => entry.1.map Char.toLower == name with
  | none => none
  | some (_, value) =>
    if value.all fun b => (0x20 ≤ b.toNat && b.toNat < 0x7F) || b == 0x09 then Utf8.decode? value
    else none

/-- The token of an `authorization` header with the scheme `Bearer`. -/
def bearerToken? (call : HttpCall) : Option String :=
  (call.headerText? "authorization").bind fun value =>
    let scheme := "Bearer ".toList
    if scheme.isPrefixOf value.toList then some (String.ofList (value.toList.drop scheme.length))
    else none

end HttpCall

end SealedEnvelope
