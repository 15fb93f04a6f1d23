import SealedEnvelope.Text.Numeral
import SealedEnvelope.Time.Calendar
import SealedEnvelope.Time.Instant

/-!
# `SealedEnvelope.Time.Rfc3339`: instants as text

Instants are written in universal time, as `2024-05-01T12:00:00.000Z`. A leap second
is written with a second more, as second 60 at the end of a minute, and a year outside 0 to
9999 with a sign.

The reader takes years of four digits only, a `T` in either case or a blank between
date and time, a fraction of any length, of which it keeps nine digits, and an offset
of hours and minutes with any of three signs in place of the `Z`.
-/

set_option autoImplicit false

namespace SealedEnvelope.Rfc3339

/-! ## Writing -/

/-- A year: four digits, or a sign and at least four digits. -/
def writeYear (year : Int) : String :=
  let digits := Numeral.renderPadded 4 year.natAbs
  if year < 0 then "-" ++ digits
  else if year ≤ 9999 then digits
  else "+" ++ digits

/-- The date and the time of day to the second. -/
def writeSeconds (t : Instant) : String :=
  let date := Date.ofDays (t.seconds / 86400)
  let second := t.secondOfDay
  let two := Numeral.renderPadded 2
  writeYear date.year ++ "-" ++ two date.month ++ "-" ++ two date.day
    ++ "T" ++ two (second / 3600) ++ ":" ++ two (second / 60 % 60) ++ ":"
    ++ two (second % 60 + t.nanos / nanosPerSecond)

/-- The instant to the millisecond, the rest cut off, with `Z` for universal time. -/
def writeMillis (t : Instant) : String :=
  writeSeconds t ++ "." ++ Numeral.renderPadded 3 (t.nanos % nanosPerSecond / 1000000) ++ "Z"

/-- The instant to as many groups of three digits as it needs, with `+00:00` for
universal time. -/
def writeFull (t : Instant) : String :=
  let nanos := t.nanos % nanosPerSecond
  let fraction :=
    if nanos = 0 then ""
    else if nanos % 1000000 = 0 then "." ++ Numeral.renderPadded 3 (nanos / 1000000)
    else if nanos % 1000 = 0 then "." ++ Numeral.renderPadded 6 (nanos / 1000)
    else "." ++ Numeral.renderPadded 9 nanos
  writeSeconds t ++ fraction ++ "+00:00"

/-! ## Reading -/

/-- The number spelled by the next `count` digits, and what follows them. -/
def takeDigits : (count : Nat) → (read : Nat) → List Char → Option (Nat × List Char)
  | 0, n, rest => some (n, rest)
  | _ + 1, _, [] => none
  | count + 1, n, c :: rest =>
    (Numeral.digitValue? c).bind fun d => takeDigits count (10 * n + d) rest

/-- What follows the character, if the text begins with it. -/
def skip (c : Char) : List Char → Option (List Char)
  | [] => none
  | d :: rest => if d = c then some rest else none

/-- The nanoseconds of a fraction, of which `places` digits still count, and what
follows its digits. -/
def takeFraction : (places nanos : Nat) → List Char → Nat × List Char
  | places, nanos, [] => (nanos * Nat.pow 10 places, [])
  | places, nanos, c :: rest =>
    match Numeral.digitValue? c with
    | none => (nanos * Nat.pow 10 places, c :: rest)
    | some d =>
      match places with
      | 0 => takeFraction 0 nanos rest
      | places + 1 => takeFraction places (10 * nanos + d) rest

/-- The nanoseconds of an optional fraction, which has at least one digit. -/
def readFraction : List Char → Option (Nat × List Char)
  | '.' :: c :: rest =>
    (Numeral.digitValue? c).map fun _ => takeFraction 9 0 (c :: rest)
  | ['.'] => none
  | chars => some (0, chars)

/-- The offset from universal time in seconds, which ends the text. -/
def readOffset : List Char → Option Int
  | [] => none
  | [c] => if c = 'Z' ∨ c = 'z' then some 0 else none
  | c :: rest => do
    let sign ← if c = '+' then some 1 else if c = '-' ∨ c = '\u2212' then some (-1) else none
    let (hours, rest) ← takeDigits 2 0 rest
    let rest ← skip ':' rest
    let (minutes, rest) ← takeDigits 2 0 rest
    if hours ≤ 23 ∧ minutes ≤ 59 ∧ rest = [] then
      some (sign * (hours * 3600 + minutes * 60 : Nat))
    else
      none

/-- A date, which exists, and what follows it. -/
def readDate (chars : List Char) : Option (Date × List Char) := do
  let (year, rest) ← takeDigits 4 0 chars
  let rest ← skip '-' rest
  let (month, rest) ← takeDigits 2 0 rest
  let rest ← skip '-' rest
  let (day, rest) ← takeDigits 2 0 rest
  let date : Date := { year := year, month := month, day := day }
  if date.isValid then some (date, rest) else none

/-- A time of day in seconds, whether its last one is a leap second, and what follows. -/
def readTimeOfDay (chars : List Char) : Option (Nat × Bool × List Char) := do
  let (hour, rest) ← takeDigits 2 0 chars
  let rest ← skip ':' rest
  let (minute, rest) ← takeDigits 2 0 rest
  let rest ← skip ':' rest
  let (second, rest) ← takeDigits 2 0 rest
  if hour ≤ 23 ∧ minute ≤ 59 ∧ second ≤ 60 then
    some (hour * 3600 + minute * 60 + min second 59, second == 60, rest)
  else
    none

/-- The instant that a text spells, if it does. -/
def read? (text : String) : Option Instant := do
  let (date, rest) ← readDate text.toList
  let rest ←
    match rest with
    | c :: rest => if c = 'T' ∨ c = 't' ∨ c = ' ' then some rest else none
    | [] => none
  let (second, leap, rest) ← readTimeOfDay rest
  let (nanos, rest) ← readFraction rest
  let offset ← readOffset rest
  Instant.ofParts? (date.toDays * 86400 + second - offset)
    (if leap then nanos + nanosPerSecond else nanos)

end SealedEnvelope.Rfc3339
