import SealedEnvelope.Json.Reader

/-!
# `SealedEnvelope.Json.Record`: objects whose members are known

A record is an object with given names. Its members may come in any order and others
may stand among them, which are passed over; a name that comes twice, or one that is
missing at the end, makes the object one of the wrong shape. An array stands for a
record too, if it holds the values in the order of the names.
-/

set_option autoImplicit false

namespace SealedEnvelope.JsonReader

/-- A member that a record has. -/
inductive Field where
  /-- A string, which must be there. -/
  | text (name : String)
  /-- Any value, which is `null` if it is not there. -/
  | optional (name : String)

namespace Field

/-- The name of the member. -/
def name : Field → String
  | text name => name
  | optional name => name

/-- Reads the value of the member, with `room` more levels of nesting. -/
def reading (room : Nat) : Field → Reading JsonValue
  | text _ => fun text => (string text).map fun found => (.string found.1, found.2)
  | optional _ => value strict room

/-- What stands for the member when it is not there. -/
def missing : Field → Except Fault JsonValue
  | text _ => .error .wrongShape
  | optional _ => .ok .null

end Field

/-- The values of the fields from the elements of an array, in order. Only the closing
bracket may follow the last one. -/
def fieldElements (room : Nat) : (first : Bool) → List Field → Reading (List JsonValue)
  | first, [], text => do
    match ← nextItem 0x5D first text with
    | (none, rest) => return ([], rest)
    | (some _, _) => throw .malformed
  | first, field :: fields, text => do
    match ← nextItem 0x5D first text with
    | (none, rest) =>
      let values ← (field :: fields).mapM Field.missing
      return (values, rest)
    | (some item, _) =>
      let (v, rest) ← field.reading room item
      let (values, rest) ← fieldElements room false fields rest
      return (v :: values, rest)

/-- A member of a record: it is read if it is one of the fields and has not been found
yet, and passed over if it is none of them. -/
def fieldMember (room : Nat) (fields : List Field) (found : List (String × JsonValue)) (name : String) :
    Except Fault (Reading (List (String × JsonValue))) :=
  match fields.find? fun field => field.name == name with
  | none => .ok (skipValue found)
  | some field =>
    if found.any fun entry => entry.1 == name then .error .wrongShape
    else
      .ok fun text => (field.reading room text).map fun v => ((name, v.1) :: found, v.2)

/-- The value of a field among those that have been found. -/
def fieldValue (found : List (String × JsonValue)) (field : Field) : Except Fault JsonValue :=
  match found.find? fun entry => entry.1 == field.name with
  | some entry => .ok entry.2
  | none => field.missing

/-- The values of the fields of a record, in the order of the fields. -/
def record (fields : List Field) : Reading (List JsonValue) := fun text =>
  match skipBlanks text with
  | 0x5B :: rest => fieldElements (maxDepth - 1) true fields rest
  | 0x7B :: rest => do
    let (found, rest) ←
      members stringText (fieldMember (maxDepth - 1) fields) (rest.length + 1) true [] rest
    let values ← fields.mapM (fieldValue found)
    return (values, rest)
  | text => do
    let _ ← scalar strict text
    throw .wrongShape

/-- The texts of a record whose members are all strings. -/
def texts (names : List String) : Reading (List String) := fun text =>
  (record (names.map Field.text) text).map fun found => (found.1.filterMap JsonValue.text?, found.2)

end SealedEnvelope.JsonReader
