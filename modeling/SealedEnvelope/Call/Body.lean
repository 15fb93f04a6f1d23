import SealedEnvelope.Handshake.Bundle
import SealedEnvelope.Json.Record
import SealedEnvelope.Json.Writer

/-!
# `SealedEnvelope.Call.Body`: the bodies of requests and responses

The handshake and the secured calls exchange four small JSON objects of strings: the
offer and the answer of a handshake, and the sealed request and the sealed reply. For
each of them `members` lists what it holds, in the order in which it is written, and
`reading` reads it.
-/

set_option autoImplicit false

namespace SealedEnvelope

open JsonReader

namespace Offer

/-- The members of an offer. -/
def members (offer : Offer) : List (String × JsonValue) :=
  [("a0", .string offer.signing), ("a1", .string offer.first), ("a2", .string offer.second)]

/-- Reads an offer. -/
def reading : Reading Offer := fun text => do
  match ← texts ["a0", "a1", "a2"] text with
  | ([signing, first, second], rest) =>
    return ({ signing := signing, first := first, second := second }, rest)
  | _ => throw .wrongShape

end Offer

namespace Answer

/-- The members of an answer. -/
def members (answer : Answer) : List (String × JsonValue) :=
  [("i", .string answer.index), ("b0", .string answer.signing), ("b1", .string answer.first),
    ("b2", .string answer.second)]

/-- Reads an answer. -/
def reading : Reading Answer := fun text => do
  match ← texts ["i", "b0", "b1", "b2"] text with
  | ([index, signing, first, second], rest) =>
    return ({ index := index, signing := signing, first := first, second := second }, rest)
  | _ => throw .wrongShape

end Answer

/-- A sealed request: the index of the prekey that it is for, and an envelope. -/
structure SealedRequest where
  index : String
  envelope : String
  deriving DecidableEq, Repr

namespace SealedRequest

/-- The members of a sealed request. -/
def members (request : SealedRequest) : List (String × JsonValue) :=
  [("i", .string request.index), ("d", .string request.envelope)]

/-- Reads a sealed request. -/
def reading : Reading SealedRequest := fun text => do
  match ← texts ["i", "d"] text with
  | ([index, envelope], rest) => return ({ index := index, envelope := envelope }, rest)
  | _ => throw .wrongShape

end SealedRequest

/-- A sealed reply: an envelope. -/
structure SealedReply where
  envelope : String
  deriving DecidableEq, Repr

namespace SealedReply

/-- The members of a sealed reply. -/
def members (reply : SealedReply) : List (String × JsonValue) :=
  [("d", .string reply.envelope)]

/-- Reads a sealed reply. -/
def reading : Reading SealedReply := fun text => do
  match ← texts ["d"] text with
  | ([envelope], rest) => return ({ envelope := envelope }, rest)
  | _ => throw .wrongShape

end SealedReply

end SealedEnvelope
