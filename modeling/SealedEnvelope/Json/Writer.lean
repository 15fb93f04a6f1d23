import SealedEnvelope.Json.Value
import SealedEnvelope.Text.Utf8

/-!
# `SealedEnvelope.Json.Writer`: JSON values as text

`JsonValue.text` is compact: no blanks at all. `JsonValue.pretty` puts every element and
every member on a line of its own, two blanks further in than what holds it. Strings
escape the quotation mark, the backslash and the controls, and nothing else.
-/

set_option autoImplicit false

namespace SealedEnvelope

/-- One character as it stands in a JSON string. -/
def escapeChar (c : Char) : List Char :=
  if c = '\x22' then ['\\', '\x22']
  else if c = '\\' then ['\\', '\\']
  else if c.toNat < 0x20 then
    if c = '\x08' then ['\\', 'b']
    else if c = '\t' then ['\\', 't']
    else if c = '\n' then ['\\', 'n']
    else if c = '\x0c' then ['\\', 'f']
    else if c = '\r' then ['\\', 'r']
    else ['\\', 'u', '0', '0', Nat.digitChar (c.toNat / 16), Nat.digitChar (c.toNat % 16)]
  else [c]

/-- A text as a JSON string. -/
def quoteChars (s : String) : List Char :=
  ['\x22'] ++ s.toList.flatMap escapeChar ++ ['\x22']

/-- The text of a number. -/
def JsonNumber.text : JsonNumber → String
  | integer n _ => Numeral.renderInt n
  | real x => x.render

namespace JsonValue

mutual

/-- The characters of the compact text of a value. -/
def chars : JsonValue → List Char
  | null => ['n', 'u', 'l', 'l']
  | bool true => ['t', 'r', 'u', 'e']
  | bool false => ['f', 'a', 'l', 's', 'e']
  | number n => n.text.toList
  | string s => quoteChars s
  | array elements => '[' :: elementChars elements ++ [']']
  | object members => '\x7b' :: memberChars members ++ ['\x7d']

/-- The characters of elements with commas between them. -/
def elementChars : List JsonValue → List Char
  | [] => []
  | [v] => v.chars
  | v :: next :: rest => v.chars ++ ',' :: elementChars (next :: rest)

/-- The characters of members with commas between them. -/
def memberChars : List (String × JsonValue) → List Char
  | [] => []
  | [(name, v)] => quoteChars name ++ ':' :: v.chars
  | (name, v) :: next :: rest =>
    quoteChars name ++ ':' :: v.chars ++ ',' :: memberChars (next :: rest)

end

/-- The compact text of a value. -/
def text (v : JsonValue) : String := String.ofList v.chars

/-- The bytes of the compact text of a value. -/
def bytes (v : JsonValue) : Bytes := Utf8.encode v.text

/-- The start of a line, `depth` levels in. -/
def indent (depth : Nat) : List Char := '\n' :: List.replicate (2 * depth) ' '

mutual

/-- The characters of the text of a value over several lines, `depth` levels in. -/
def prettyChars (depth : Nat) : JsonValue → List Char
  | array [] => ['[', ']']
  | array elements => '[' :: prettyElements (depth + 1) elements ++ indent depth ++ [']']
  | object [] => ['\x7b', '\x7d']
  | object members => '\x7b' :: prettyMembers (depth + 1) members ++ indent depth ++ ['\x7d']
  | v => v.chars

/-- The characters of elements, each on a line of its own. -/
def prettyElements (depth : Nat) : List JsonValue → List Char
  | [] => []
  | [v] => indent depth ++ prettyChars depth v
  | v :: next :: rest =>
    indent depth ++ prettyChars depth v ++ ',' :: prettyElements depth (next :: rest)

/-- The characters of members, each on a line of its own. -/
def prettyMembers (depth : Nat) : List (String × JsonValue) → List Char
  | [] => []
  | [(name, v)] => indent depth ++ quoteChars name ++ ':' :: ' ' :: prettyChars depth v
  | (name, v) :: next :: rest =>
    indent depth ++ quoteChars name ++ ':' :: ' ' :: prettyChars depth v
      ++ ',' :: prettyMembers depth (next :: rest)

end

/-- The text of a value over several lines. -/
def pretty (v : JsonValue) : String := String.ofList (v.prettyChars 0)

end JsonValue

end SealedEnvelope
