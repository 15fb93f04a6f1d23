import SealedEnvelope.Json.NumberText
import SealedEnvelope.Text.Utf8

/-!
# `SealedEnvelope.Json.Reader`: JSON values from text

The reader goes through the text once, from the front, and answers with the first fault
that it meets: the text is *malformed* where it stops being JSON, and of the *wrong
shape* where it is JSON still, but not what is asked for. Nesting is limited to 127
levels.

A value that nobody has asked for is passed over leniently. Its nesting has no limit,
its numbers may be of any size, and its strings need not be text; it has to be JSON in
every other way. `Leaves` is what the two ways of reading differ in.
-/

set_option autoImplicit false

namespace SealedEnvelope.JsonReader

/-- Why a text does not read as what is asked for. -/
inductive Fault where
  /-- The text stops being JSON. -/
  | malformed
  /-- The text is JSON as far as it has been read, but not what is asked for. -/
  | wrongShape
  deriving DecidableEq, Repr

/-- The fault in words. -/
def Fault.message : Fault → String
  | malformed => "malformed text"
  | wrongShape => "unexpected value"

/-- A function that reads something from the front of a text and gives what follows it. -/
abbrev Reading (α : Type) := Bytes → Except Fault (α × Bytes)

/-- How deep arrays and objects may nest. -/
def maxDepth : Nat := 127

/-- The text without the blanks in front. -/
def skipBlanks (text : Bytes) : Bytes :=
  text.dropWhile fun b => b == 0x20 || b == 0x09 || b == 0x0A || b == 0x0D

/-- Passes over a fixed word. -/
def literal {α : Type} (word : Bytes) (value : α) : Reading α := fun text =>
  if word.isPrefixOf text then .ok (value, text.drop word.length) else .error .malformed

/-! ## Strings -/

/-- The value of a hexadecimal digit in either case. -/
def hexValue? (b : UInt8) : Option Nat :=
  let n := b.toNat
  if 0x30 ≤ n ∧ n ≤ 0x39 then some (n - 0x30)
  else if 0x61 ≤ n ∧ n ≤ 0x66 then some (n - 0x61 + 10)
  else if 0x41 ≤ n ∧ n ≤ 0x46 then some (n - 0x41 + 10)
  else none

/-- The number spelled by the four digits in front. -/
def codeUnit? : Bytes → Option (Nat × Bytes)
  | a :: b :: c :: d :: rest => do
    let w ← hexValue? a
    let x ← hexValue? b
    let y ← hexValue? c
    let z ← hexValue? d
    some (4096 * w + 256 * x + 16 * y + z, rest)
  | _ => none

/-- The character after `\u`, which takes a second escape if the first one is the first
half of a pair. A half without the other is none. -/
def escapedCodePoint? (text : Bytes) : Option (Char × Bytes) := do
  let (unit, rest) ← codeUnit? text
  if unit < 0xD800 ∨ 0xDFFF < unit then some (Char.ofNat unit, rest)
  else if 0xDC00 ≤ unit then none
  else
    match rest with
    | 0x5C :: 0x75 :: rest => do
      let (second, rest) ← codeUnit? rest
      if 0xDC00 ≤ second ∧ second ≤ 0xDFFF then
        some (Char.ofNat (0x10000 + (unit - 0xD800) * 0x400 + (second - 0xDC00)), rest)
      else
        none
    | _ => none

/-- The byte that a one-letter escape stands for. -/
def simpleEscape? (b : UInt8) : Option UInt8 :=
  if b = 0x22 ∨ b = 0x5C ∨ b = 0x2F then some b
  else if b = 0x62 then some 0x08
  else if b = 0x66 then some 0x0C
  else if b = 0x6E then some 0x0A
  else if b = 0x72 then some 0x0D
  else if b = 0x74 then some 0x09
  else none

/-- The bytes that an escape stands for, given what comes after the backslash. -/
def escape? : Bytes → Option (Bytes × Bytes)
  | [] => none
  | b :: rest =>
    if b = 0x75 then (escapedCodePoint? rest).map fun found => (Utf8.encodeChar found.1, found.2)
    else (simpleEscape? b).map fun value => ([value], rest)

/-- Passes over an escape, of which it asks no more than its form. -/
def skipEscape? : Bytes → Option (Bytes × Bytes)
  | [] => none
  | b :: rest =>
    if b = 0x75 then (codeUnit? rest).map fun found => ([], found.2)
    else (simpleEscape? b).map fun _ => ([], rest)

/-- The bytes of a string up to the quotation mark that ends it, given how to read an
escape. `steps` bounds the number of steps and may be any number not below the length
of the text. -/
def stringBytes (escape : Bytes → Option (Bytes × Bytes)) : (steps : Nat) → Reading Bytes
  | 0, _ => .error .malformed
  | _, [] => .error .malformed
  | steps + 1, b :: rest =>
    if b = 0x22 then .ok ([], rest)
    else if b = 0x5C then
      -- An escape takes at least one byte, so the bound on the steps goes on to hold.
      match escape rest with
      | none => .error .malformed
      | some (value, rest) =>
        (stringBytes escape steps rest).map fun found => (value ++ found.1, found.2)
    else if b.toNat < 0x20 then .error .malformed
    else (stringBytes escape steps rest).map fun found => (b :: found.1, found.2)

/-- The text of a string whose opening mark has been passed. -/
def stringText : Reading String := fun text => do
  let (bytes, rest) ← stringBytes escape? text.length text
  match Utf8.decode? bytes with
  | some s => .ok (s, rest)
  | none => .error .malformed

/-- Passes over a string whose opening mark has been passed. -/
def skipString : Reading String := fun text =>
  (stringBytes skipEscape? text.length text).map fun found => ("", found.2)

/-! ## Lists of elements and of members -/

/-- What the blanks and the comma before an element or a member leave, or nothing at the
bracket that ends the list, with what follows that bracket. -/
def nextItem (close : UInt8) (first : Bool) (text : Bytes) : Except Fault (Option Bytes × Bytes) :=
  match skipBlanks text with
  | [] => .error .malformed
  | b :: rest =>
    -- The bracket may come at once or after an element, but not after a comma.
    if b = close then .ok (none, rest)
    else if first then .ok (some (b :: rest), [])
    else if b = 0x2C then
      match skipBlanks rest with
      | [] => .error .malformed
      | c :: after => if c = close then .error .malformed else .ok (some (c :: after), [])
    else .error .malformed

/-- The elements of an array up to its end. -/
def elements {α : Type} (element : Reading α) : (steps : Nat) → (first : Bool) → Reading (List α)
  | 0, _, _ => .error .malformed
  | steps + 1, first, text => do
    match ← nextItem 0x5D first text with
    | (none, rest) => return ([], rest)
    | (some item, _) =>
      let (value, rest) ← element item
      let (values, rest) ← elements element steps false rest
      return (value :: values, rest)

/-- What comes after the colon between a name and its value. -/
def afterColon (text : Bytes) : Except Fault Bytes :=
  match skipBlanks text with
  | 0x3A :: rest => .ok rest
  | _ => .error .malformed

/-- The members of an object up to its end, gathered from `found`. A name is looked at
before its value: `member` says, given what has been found and the name, how to read the
value, or that there is no need to. -/
def members {σ : Type} (name : Reading String) (member : σ → String → Except Fault (Reading σ)) :
    (steps : Nat) → (first : Bool) → (found : σ) → Reading σ
  | 0, _, _, _ => .error .malformed
  | steps + 1, first, found, text => do
    match ← nextItem 0x7D first text with
    | (none, rest) => return (found, rest)
    | (some item, _) =>
      match item with
      | 0x22 :: item =>
        let (key, rest) ← name item
        let value ← member found key
        let rest ← afterColon rest
        let (found, rest) ← value rest
        members name member steps false found rest
      | _ => throw .malformed

/-! ## Values -/

/-- How names, strings and numbers are read. -/
structure Leaves where
  string : Reading String
  number : Reading JsonNumber

/-- Strings must be text and numbers must have a value. -/
def strict : Leaves where
  string := stringText
  number := fun text =>
    match NumberText.scan? text with
    | none => .error .malformed
    | some (number, rest) =>
      match number.value? with
      | none => .error .malformed
      | some value => .ok (value, rest)

/-- Strings and numbers need only have the right form, and stand for nothing. -/
def lenient : Leaves where
  string := skipString
  number := fun text =>
    match NumberText.scan? text with
    | none => .error .malformed
    | some (_, rest) => .ok (.integer 0 (by decide), rest)

/-- A value that is no array and no object, from its first byte. -/
def scalar (leaves : Leaves) : Reading JsonValue
  | [] => .error .malformed
  | b :: rest =>
    if b = 0x22 then (leaves.string rest).map fun found => (.string found.1, found.2)
    else if b = 0x6E then literal [0x75, 0x6C, 0x6C] .null rest
    else if b = 0x74 then literal [0x72, 0x75, 0x65] (.bool true) rest
    else if b = 0x66 then literal [0x61, 0x6C, 0x73, 0x65] (.bool false) rest
    else if b = 0x2D ∨ (NumberText.digit? b).isSome then
      (leaves.number (b :: rest)).map fun found => (.number found.1, found.2)
    else .error .malformed

/-- A value, with `room` more levels of nesting. -/
def value (leaves : Leaves) : (room : Nat) → Reading JsonValue
  | 0, text =>
    -- There is room for no more brackets, but still for a value without any.
    match skipBlanks text with
    | 0x5B :: _ => .error .malformed
    | 0x7B :: _ => .error .malformed
    | text => scalar leaves text
  | room + 1, text =>
    match skipBlanks text with
    | 0x5B :: rest =>
      (elements (value leaves room) (rest.length + 1) true rest).map fun found =>
        (.array found.1, found.2)
    | 0x7B :: rest =>
      -- A later member replaces an earlier one of the same name.
      let member := fun (found : List (String × JsonValue)) name =>
        .ok fun text => (value leaves room text).map fun v => (Keyed.insert name v.1 found, v.2)
      (members leaves.string member (rest.length + 1) true [] rest).map fun found =>
        (.object found.1, found.2)
    | text => scalar leaves text

/-- Passes over a value that nobody has asked for. -/
def skipValue {σ : Type} (found : σ) : Reading σ := fun text =>
  (value lenient text.length text).map fun v => (found, v.2)

/-- A string; any other value is of the wrong shape, if it begins well. A value that is no
array and no object has to be well formed for that. -/
def string : Reading String := fun text =>
  match skipBlanks text with
  | 0x22 :: rest => stringText rest
  | 0x5B :: _ => .error .wrongShape
  | 0x7B :: _ => .error .wrongShape
  | text => do
    let _ ← scalar strict text
    throw .wrongShape

/-- What a whole text holds, with nothing but blanks around it. -/
def whole {α : Type} (reading : Reading α) (text : Bytes) : Except Fault α := do
  let (found, rest) ← reading text
  if skipBlanks rest = [] then return found else throw .malformed

end SealedEnvelope.JsonReader

namespace SealedEnvelope

/-- The value that a text holds. -/
def JsonValue.read (text : Bytes) : Except JsonReader.Fault JsonValue :=
  JsonReader.whole (JsonReader.value JsonReader.strict JsonReader.maxDepth) text

end SealedEnvelope
