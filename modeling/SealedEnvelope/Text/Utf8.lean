import SealedEnvelope.Bytes

/-!
# `SealedEnvelope.Text.Utf8`: text as bytes and bytes as text

`encode` writes the bytes of a text. Reading goes through one function, `units`,
which splits a byte string into characters and *ill-formed parts*: an ill-formed
part is the longest run of bytes that begins some character and is not completed
into one, or a single byte that begins none. The strict reader `decode?` refuses
a byte string with such a part, and the lossy reader `decodeLossy` puts U+FFFD in
the place of each.

Main statements:

* `next_encodeChar`: the bytes of a character are read as that character, whatever
  follows;
* `decode?_encode` and `decodeLossy_encode`: both readers undo `encode`.
-/

set_option autoImplicit false

namespace SealedEnvelope.Utf8

/-- The bytes of one character: one to four of them, by the size of its code point. -/
def encodeChar (c : Char) : Bytes :=
  let n := c.toNat
  if n < 0x80 then
    [UInt8.ofNat n]
  else if n < 0x800 then
    [UInt8.ofNat (0xC0 + n / 0x40), UInt8.ofNat (0x80 + n % 0x40)]
  else if n < 0x10000 then
    [UInt8.ofNat (0xE0 + n / 0x1000), UInt8.ofNat (0x80 + n / 0x40 % 0x40),
      UInt8.ofNat (0x80 + n % 0x40)]
  else
    [UInt8.ofNat (0xF0 + n / 0x40000), UInt8.ofNat (0x80 + n / 0x1000 % 0x40),
      UInt8.ofNat (0x80 + n / 0x40 % 0x40), UInt8.ofNat (0x80 + n % 0x40)]

/-- The bytes of a text. -/
def encode (text : String) : Bytes := text.toList.flatMap encodeChar

/-- What a first byte announces: how many bytes follow it, the range that the first
of these must lie in, and the high bits of the code point. -/
structure Lead where
  following : Nat
  low : Nat
  high : Nat
  bits : Nat

/-- The announcement of a first byte, or nothing if no character begins with it. The
second byte is narrowed after `E0` and `F0`, where a smaller one would spell a shorter
form, after `ED`, where a larger one would spell a surrogate, and after `F4`, where a
larger one would leave the range of code points. -/
def lead? (b : Nat) : Option Lead :=
  if b < 0x80 then some ⟨0, 0, 0, b⟩
  else if b < 0xC2 then none
  else if b < 0xE0 then some ⟨1, 0x80, 0xBF, b - 0xC0⟩
  else if b < 0xF0 then
    some ⟨2, if b = 0xE0 then 0xA0 else 0x80, if b = 0xED then 0x9F else 0xBF, b - 0xE0⟩
  else if b < 0xF5 then
    some ⟨3, if b = 0xF0 then 0x90 else 0x80, if b = 0xF4 then 0x8F else 0xBF, b - 0xF0⟩
  else none

/-- Reads `following` more bytes, the first of them within `low` and `high`, into the
code point `bits`. The result is the character, or nothing if one of them is missing or
out of range, with the number of bytes taken. -/
def follow : (following low high bits taken : Nat) → Bytes → Option Char × Nat
  | 0, _, _, bits, taken, _ => (some (Char.ofNat bits), taken)
  | _ + 1, _, _, _, taken, [] => (none, taken)
  | following + 1, low, high, bits, taken, b :: rest =>
    if low ≤ b.toNat ∧ b.toNat ≤ high then
      follow following 0x80 0xBF (0x40 * bits + b.toNat % 0x40) (taken + 1) rest
    else
      (none, taken)

/-- The character that begins with the byte `b`, or nothing for an ill-formed part, and
how many of the bytes after `b` belong to it. -/
def next (b : UInt8) (rest : Bytes) : Option Char × Nat :=
  match lead? b.toNat with
  | none => (none, 0)
  | some l => follow l.following l.low l.high l.bits 0 rest

/-- The characters of a byte string in order, with `none` for each ill-formed part. -/
def units : Bytes → List (Option Char)
  | [] => []
  | b :: rest =>
    let unit := next b rest
    unit.1 :: units (rest.drop unit.2)
termination_by bytes => bytes.length
decreasing_by simp only [List.length_drop, List.length_cons]; omega

/-- The text with these bytes, if they are well formed. -/
def decode? (bytes : Bytes) : Option String :=
  ((units bytes).mapM id).map String.ofList

/-- The text with these bytes, where U+FFFD stands for each ill-formed part. -/
def decodeLossy (bytes : Bytes) : String :=
  String.ofList ((units bytes).map (·.getD '\uFFFD'))

/-! ## Reading back what was written -/

private theorem toNat_lt (c : Char) : c.toNat < 0x110000 := by
  have h := c.valid
  simp only [UInt32.isValidChar, Nat.isValidChar] at h
  simp only [Char.toNat]
  omega

private theorem not_surrogate (c : Char) : c.toNat < 0xD800 ∨ 0xDFFF < c.toNat := by
  have h := c.valid
  simp only [UInt32.isValidChar, Nat.isValidChar] at h
  simp only [Char.toNat]
  omega

private theorem toNat_ofNat_of_lt {n : Nat} (h : n < 256) : (UInt8.ofNat n).toNat = n := by
  rw [UInt8.toNat_ofNat']
  omega

/-- The bytes of a character are read as that character and no more is taken. -/
theorem next_encodeChar (c : Char) (rest : Bytes) :
    ∃ b bs, encodeChar c = b :: bs ∧ next b (bs ++ rest) = (some c, bs.length) := by
  have hlt := toNat_lt c
  have hsur := not_surrogate c
  have hc : Char.ofNat c.toNat = c := Char.ofNat_toNat c
  by_cases h1 : c.toNat < 0x80
  · refine ⟨UInt8.ofNat c.toNat, [], by simp only [encodeChar, if_pos h1], ?_⟩
    have hb : (UInt8.ofNat c.toNat).toNat = c.toNat := toNat_ofNat_of_lt (by omega)
    simp [next, lead?, hb, h1, follow, hc]
  by_cases h2 : c.toNat < 0x800
  · refine ⟨UInt8.ofNat (0xC0 + c.toNat / 0x40), [UInt8.ofNat (0x80 + c.toNat % 0x40)],
      by simp only [encodeChar, if_neg h1, if_pos h2], ?_⟩
    have hb : (UInt8.ofNat (0xC0 + c.toNat / 0x40)).toNat = 0xC0 + c.toNat / 0x40 :=
      toNat_ofNat_of_lt (by omega)
    have hb' : (UInt8.ofNat (0x80 + c.toNat % 0x40)).toNat = 0x80 + c.toNat % 0x40 :=
      toNat_ofNat_of_lt (by omega)
    have hl : lead? (0xC0 + c.toNat / 0x40) = some ⟨1, 0x80, 0xBF, c.toNat / 0x40⟩ := by
      rw [lead?, if_neg (by omega), if_neg (by omega), if_pos (by omega)]
      simp
    have hn : 0x40 * (c.toNat / 0x40) + (0x80 + c.toNat % 0x40) % 0x40 = c.toNat := by omega
    rw [next, hb, hl]
    simp only [List.cons_append, List.nil_append, follow, hb']
    rw [if_pos (by omega), hn, hc]
    rfl
  by_cases h3 : c.toNat < 0x10000
  · refine ⟨UInt8.ofNat (0xE0 + c.toNat / 0x1000),
      [UInt8.ofNat (0x80 + c.toNat / 0x40 % 0x40), UInt8.ofNat (0x80 + c.toNat % 0x40)],
      by simp only [encodeChar, if_neg h1, if_neg h2, if_pos h3], ?_⟩
    have hb : (UInt8.ofNat (0xE0 + c.toNat / 0x1000)).toNat = 0xE0 + c.toNat / 0x1000 :=
      toNat_ofNat_of_lt (by omega)
    have hb' : (UInt8.ofNat (0x80 + c.toNat / 0x40 % 0x40)).toNat
        = 0x80 + c.toNat / 0x40 % 0x40 := toNat_ofNat_of_lt (by omega)
    have hb'' : (UInt8.ofNat (0x80 + c.toNat % 0x40)).toNat = 0x80 + c.toNat % 0x40 :=
      toNat_ofNat_of_lt (by omega)
    have hl : lead? (0xE0 + c.toNat / 0x1000)
        = some ⟨2, if 0xE0 + c.toNat / 0x1000 = 0xE0 then 0xA0 else 0x80,
            if 0xE0 + c.toNat / 0x1000 = 0xED then 0x9F else 0xBF, c.toNat / 0x1000⟩ := by
      rw [lead?, if_neg (by omega), if_neg (by omega), if_neg (by omega), if_pos (by omega)]
      simp
    have hn : 0x40 * (0x40 * (c.toNat / 0x1000) + (0x80 + c.toNat / 0x40 % 0x40) % 0x40)
        + (0x80 + c.toNat % 0x40) % 0x40 = c.toNat := by omega
    rw [next, hb, hl]
    simp only [List.cons_append, List.nil_append, follow, hb', hb'']
    rw [if_pos (by constructor <;> split <;> omega), if_pos (by omega), hn, hc]
    rfl
  · refine ⟨UInt8.ofNat (0xF0 + c.toNat / 0x40000), [UInt8.ofNat (0x80 + c.toNat / 0x1000 % 0x40),
      UInt8.ofNat (0x80 + c.toNat / 0x40 % 0x40), UInt8.ofNat (0x80 + c.toNat % 0x40)],
      by simp only [encodeChar, if_neg h1, if_neg h2, if_neg h3], ?_⟩
    have hb : (UInt8.ofNat (0xF0 + c.toNat / 0x40000)).toNat = 0xF0 + c.toNat / 0x40000 :=
      toNat_ofNat_of_lt (by omega)
    have hb1 : (UInt8.ofNat (0x80 + c.toNat / 0x1000 % 0x40)).toNat
        = 0x80 + c.toNat / 0x1000 % 0x40 := toNat_ofNat_of_lt (by omega)
    have hb2 : (UInt8.ofNat (0x80 + c.toNat / 0x40 % 0x40)).toNat
        = 0x80 + c.toNat / 0x40 % 0x40 := toNat_ofNat_of_lt (by omega)
    have hb3 : (UInt8.ofNat (0x80 + c.toNat % 0x40)).toNat = 0x80 + c.toNat % 0x40 :=
      toNat_ofNat_of_lt (by omega)
    have hl : lead? (0xF0 + c.toNat / 0x40000)
        = some ⟨3, if 0xF0 + c.toNat / 0x40000 = 0xF0 then 0x90 else 0x80,
            if 0xF0 + c.toNat / 0x40000 = 0xF4 then 0x8F else 0xBF, c.toNat / 0x40000⟩ := by
      rw [lead?, if_neg (by omega), if_neg (by omega), if_neg (by omega), if_neg (by omega),
        if_pos (by omega)]
      simp
    have hn : 0x40 * (0x40 * (0x40 * (c.toNat / 0x40000) + (0x80 + c.toNat / 0x1000 % 0x40) % 0x40)
        + (0x80 + c.toNat / 0x40 % 0x40) % 0x40) + (0x80 + c.toNat % 0x40) % 0x40 = c.toNat := by
      omega
    rw [next, hb, hl]
    simp only [List.cons_append, List.nil_append, follow, hb1, hb2, hb3]
    rw [if_pos (by constructor <;> split <;> omega), if_pos (by omega), if_pos (by omega), hn, hc]
    rfl

theorem units_encodeChar_append (c : Char) (rest : Bytes) :
    units (encodeChar c ++ rest) = some c :: units rest := by
  obtain ⟨b, bs, hb, hnext⟩ := next_encodeChar c rest
  rw [hb, List.cons_append, units, hnext]
  simp

theorem units_encode_append (text : String) (rest : Bytes) :
    units (encode text ++ rest) = text.toList.map some ++ units rest := by
  rw [encode]
  induction text.toList with
  | nil => simp
  | cons c cs ih =>
    rw [List.flatMap_cons, List.append_assoc, units_encodeChar_append, ih]
    simp

theorem units_encode (text : String) : units (encode text) = text.toList.map some := by
  have h := units_encode_append text []
  simpa [units] using h

@[simp] theorem decode?_encode (text : String) : decode? (encode text) = some text := by
  rw [decode?, units_encode]
  have h : ∀ l : List Char, (l.map some).mapM id = some l := by
    intro l
    induction l with
    | nil => rfl
    | cons c cs ih => simp [ih]
  simp [h]

@[simp] theorem decodeLossy_encode (text : String) : decodeLossy (encode text) = text := by
  rw [decodeLossy, units_encode]
  simp [Function.comp_def]

end SealedEnvelope.Utf8
