import SealedEnvelope.Json.Binary64
import SealedEnvelope.Keyed

/-!
# `SealedEnvelope.Json.Value`: JSON values

A number that is an integer of at most 64 bits is kept as one; all others are binary
floating point numbers. Objects hold their members in the order of their names, and
`JsonValue.Canonical` says so of a value and of all values in it.
-/

set_option autoImplicit false

namespace SealedEnvelope

/-- A JSON number. -/
inductive JsonNumber where
  /-- An integer, signed or unsigned, of at most 64 bits: from `-2 ^ 63` up to below `2 ^ 64`. -/
  | integer (n : Int) (bounds : -9223372036854775808 ≤ n ∧ n < 18446744073709551616)
  /-- Any other number, as nearly as it can be kept. -/
  | real (x : Binary64)
  deriving DecidableEq

/-- A natural number of at most 64 bits as a JSON number. -/
def JsonNumber.ofNat (n : Nat) (h : n < 18446744073709551616) : JsonNumber := .integer n (by omega)

/-- A JSON value. -/
inductive JsonValue where
  | null
  | bool (b : Bool)
  | number (n : JsonNumber)
  | string (s : String)
  | array (elements : List JsonValue)
  | object (members : List (String × JsonValue))

namespace JsonValue

/-- In every object the names of the members ascend. -/
inductive Canonical : JsonValue → Prop
  | null : Canonical null
  | bool (b : Bool) : Canonical (bool b)
  | number (n : JsonNumber) : Canonical (number n)
  | string (s : String) : Canonical (string s)
  | array (elements : List JsonValue) : (∀ v ∈ elements, Canonical v) → Canonical (array elements)
  | object (members : List (String × JsonValue)) :
    Keyed.Ascending members → (∀ m ∈ members, Canonical m.2) → Canonical (object members)

/-- The object with these members, of which a later one replaces an earlier one of the
same name. -/
def ofMembers (members : List (String × JsonValue)) : JsonValue :=
  object (members.foldl (fun sorted m => Keyed.insert m.1 m.2 sorted) [])

/-- The member of an object with this name; other values have none. -/
def member? (name : String) : JsonValue → Option JsonValue
  | object members => Keyed.find? name members
  | _ => none

/-- The text of a string. -/
def text? : JsonValue → Option String
  | string s => some s
  | _ => none

end JsonValue

end SealedEnvelope
