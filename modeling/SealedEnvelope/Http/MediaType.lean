import SealedEnvelope.Http.Token

/-!
# `SealedEnvelope.Http.MediaType`: what a content type announces

A content type is a type and a subtype, and parameters after semicolons. Only one thing
is asked of it: whether it announces JSON, which is the subtype `json` of the type
`application`, or any other subtype of it with the suffix `+json`. Case does not matter,
and neither do the parameters, but they have to be well formed.
-/

set_option autoImplicit false

namespace SealedEnvelope.MediaType

open Http (isTokenByte)

/-- Whether a byte may stand between quotation marks. -/
def isQuotedByte (b : UInt8) : Bool := 0x1F < b.toNat && b.toNat != 0x7F

/-- The letter in lower case. -/
def lower (b : UInt8) : UInt8 := if 0x41 ≤ b.toNat ∧ b.toNat ≤ 0x5A then b + 0x20 else b

/-- What follows a quoted value, given what follows its opening mark. The value has at
least one byte, so that a second mark at once belongs to it. -/
def afterQuoted? : Bytes → Option Bytes
  | [] => none
  | b :: rest =>
    match (b :: rest.takeWhile (· != 0x22)).all isQuotedByte, rest.dropWhile (· != 0x22) with
    | true, _ :: after => some (after.dropWhile (· == 0x20))
    | _, _ => none

/-- Whether the text after a semicolon is well-formed parameters. `steps` bounds the
number of steps and may be any number not below the length of the text. -/
def areParameters : (steps : Nat) → Bytes → Bool
  | _, [] => true
  | 0, _ => false
  | steps + 1, text =>
    -- Blanks and nothing else after a semicolon are allowed.
    let text := text.dropWhile (· == 0x20)
    let next := fun rest : Bytes =>
      match rest with
      | [] => true
      | b :: rest => b == 0x3B && areParameters steps rest
    if text.isEmpty then true
    else
      match text.takeWhile isTokenByte, text.dropWhile isTokenByte with
      | _ :: _, 0x3D :: 0x22 :: quoted =>
        match afterQuoted? quoted with
        | none => false
        | some rest => next rest
      | _ :: _, 0x3D :: value =>
        (value == [] || value.head? != some 0x3B) && next (value.dropWhile isTokenByte)
      | _, _ => false

/-- The part of a subtype before its last plus sign, and the part after it if there is
one. A sign at the start is none. -/
def splitSuffix (subtype : Bytes) : Bytes × Option Bytes :=
  let suffix := (subtype.reverse.takeWhile (· != 0x2B)).reverse
  let before := subtype.take (subtype.length - suffix.length - 1)
  if suffix.length < subtype.length ∧ before ≠ [] then (before, some suffix)
  else (subtype, none)

/-- The word `application`. -/
def application : Bytes := "application".toList.map fun c => UInt8.ofNat c.toNat

/-- The word `json`. -/
def json : Bytes := "json".toList.map fun c => UInt8.ofNat c.toNat

/-- Whether a content type announces JSON. -/
def isJson (text : Bytes) : Bool :=
  let text := text.map lower
  match text.dropWhile isTokenByte with
  | 0x2F :: rest =>
    let subtype := rest.takeWhile isTokenByte
    let wellFormed :=
      match rest.dropWhile isTokenByte with
      | [] => true
      | 0x3B :: parameters => subtype != [] && areParameters parameters.length parameters
      | _ => false
    let (before, suffix) := splitSuffix subtype
    text.takeWhile isTokenByte == application && wellFormed
      && (before == json || suffix == some json)
  | _ => false

end SealedEnvelope.MediaType
