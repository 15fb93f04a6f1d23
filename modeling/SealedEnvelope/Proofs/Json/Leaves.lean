import SealedEnvelope.Json.Reader
import SealedEnvelope.Json.Writer
import SealedEnvelope.Proofs.Text.Spelling

/-!
# `SealedEnvelope.Proofs.Json.Leaves`: strings and integers are read back

The reader works on bytes and the writer on characters, so what has been written is
`encodeChars` of some characters. Each lemma reads it with any text behind it, since a string
or a number is mostly a part of something larger. A string ends with its quotation mark; a
number ends where what follows it begins with a comma or a closing bracket, or where the text
ends (`Delimits`).

Main statements:

* `stringText_written`: a string, given what is written after its opening mark;
* `strict_number_written`: an integer of at most 64 bits.
-/

set_option autoImplicit false

namespace SealedEnvelope

/-- The bytes of characters. -/
def Utf8.encodeChars (chars : List Char) : Bytes := chars.flatMap Utf8.encodeChar

open Utf8 (encodeChar encodeChars)

namespace Utf8

@[simp] theorem encodeChars_nil : encodeChars [] = [] := rfl

@[simp] theorem encodeChars_cons (c : Char) (chars : List Char) :
    encodeChars (c :: chars) = encodeChar c ++ encodeChars chars := rfl

@[simp] theorem encodeChars_append (chars chars' : List Char) :
    encodeChars (chars ++ chars') = encodeChars chars ++ encodeChars chars' :=
  List.flatMap_append

/-- Every byte of a character of several bytes is the number of no character of one byte. -/
theorem le_of_mem_encodeChar {c : Char} (h : 0x80 ≤ c.toNat) {b : UInt8} (hb : b ∈ encodeChar c) :
    0x80 ≤ b.toNat := by
  have hlt : c.toNat < 0x110000 := by
    have hvalid := c.valid
    simp only [UInt32.isValidChar, Nat.isValidChar] at hvalid
    simp only [Char.toNat]
    omega
  have hbyte : ∀ n, 0x80 ≤ n → n < 0x100 → 0x80 ≤ (UInt8.ofNat n).toNat := by
    intro n hlow hhigh
    rw [UInt8.toNat_ofNat']
    omega
  unfold encodeChar at hb
  simp only [if_neg (Nat.not_lt.2 h)] at hb
  split at hb
  · simp only [List.mem_cons, List.not_mem_nil, or_false] at hb
    rcases hb with rfl | rfl <;> exact hbyte _ (by omega) (by omega)
  · split at hb
    · simp only [List.mem_cons, List.not_mem_nil, or_false] at hb
      rcases hb with rfl | rfl | rfl <;> exact hbyte _ (by omega) (by omega)
    · simp only [List.mem_cons, List.not_mem_nil, or_false] at hb
      rcases hb with rfl | rfl | rfl | rfl <;> exact hbyte _ (by omega) (by omega)

end Utf8

namespace JsonReader

/-! ## Strings -/

/-- Whether a byte stands for itself in a string. -/
def IsPlain (b : UInt8) : Prop := b ≠ 0x22 ∧ b ≠ 0x5C ∧ 0x20 ≤ b.toNat

/-- What a text holds up to the end of a string, however many steps are allowed. -/
def EndsString (text value rest : Bytes) : Prop :=
  ∀ steps, text.length ≤ steps → stringBytes escape? steps text = .ok (value, rest)

/-- The mark that ends a string. -/
theorem endsString_mark (rest : Bytes) : EndsString (0x22 :: rest) [] rest := by
  intro steps hsteps
  cases steps with
  | zero => cases hsteps
  | succ steps => rfl

/-- A byte that stands for itself. -/
theorem EndsString.cons_plain {text value rest : Bytes} (h : EndsString text value rest) {b : UInt8}
    (hb : IsPlain b) : EndsString (b :: text) (b :: value) rest := by
  intro steps hsteps
  cases steps with
  | zero => cases hsteps
  | succ steps =>
    rw [stringBytes, if_neg hb.1, if_neg hb.2.1, if_neg (Nat.not_lt.2 hb.2.2),
      h steps (Nat.le_of_succ_le_succ hsteps)]
    rfl

theorem EndsString.append_plain {text value rest : Bytes} (h : EndsString text value rest)
    {bytes : Bytes} (hbytes : ∀ b ∈ bytes, IsPlain b) :
    EndsString (bytes ++ text) (bytes ++ value) rest := by
  induction bytes with
  | nil => exact h
  | cons b bytes ih =>
    exact (ih fun b' hb' => hbytes b' (List.mem_cons_of_mem b hb')).cons_plain
      (hbytes b List.mem_cons_self)

/-- An escape. -/
theorem EndsString.escape {text value rest : Bytes} (h : EndsString text value rest)
    (letters : Bytes) {found : Bytes} (hescape : escape? (letters ++ text) = some (found, text)) :
    EndsString (0x5C :: letters ++ text) (found ++ value) rest := by
  intro steps hsteps
  cases steps with
  | zero => cases hsteps
  | succ steps =>
    have htext : text.length ≤ steps := by
      rw [List.cons_append, List.length_cons, List.length_append] at hsteps
      omega
    rw [List.cons_append, stringBytes, if_neg (by decide), if_pos rfl, hescape]
    show (stringBytes escape? steps text).map _ = _
    rw [h steps htext]
    rfl

/-- A hexadecimal digit is read as what it stands for. -/
theorem hexValue?_digitChar : ∀ n < 16, hexValue? (UInt8.ofNat (Nat.digitChar n).toNat) = some n := by
  decide

/-- A control is read from the four digits of its escape. -/
theorem escape?_control {n : Nat} (h : n < 0x20) (text : Bytes) :
    escape? (encodeChars ['u', '0', '0', Nat.digitChar (n / 16), Nat.digitChar (n % 16)] ++ text)
      = some (encodeChar (Char.ofNat n), text) := by
  have hdigit : ∀ m < 16, (Nat.digitChar m).toNat < 0x80 := by decide
  have hhigh := hexValue?_digitChar (n / 16) (by omega)
  have hlow := hexValue?_digitChar (n % 16) (by omega)
  have hunit : codeUnit? (encodeChars ['0', '0', Nat.digitChar (n / 16), Nat.digitChar (n % 16)]
      ++ text) = some (n, text) := by
    simp only [Utf8.encodeChars_cons, Utf8.encodeChar_of_lt (hdigit (n / 16) (by omega)),
      Utf8.encodeChar_of_lt (hdigit (n % 16) (by omega))]
    show codeUnit? (0x30 :: 0x30 :: UInt8.ofNat (Nat.digitChar (n / 16)).toNat
      :: UInt8.ofNat (Nat.digitChar (n % 16)).toNat :: text) = _
    have hsum : 4096 * 0 + 256 * 0 + 16 * (n / 16) + n % 16 = n := by omega
    rw [codeUnit?, hhigh, hlow]
    exact congrArg (fun unit => some (unit, text)) hsum
  show (escapedCodePoint? (encodeChars ['0', '0', Nat.digitChar (n / 16), Nat.digitChar (n % 16)]
    ++ text)).map _ = _
  rw [escapedCodePoint?, hunit]
  show (if n < 0xD800 ∨ 0xDFFF < n then some (Char.ofNat n, text) else _).map _ = _
  rw [if_pos (Or.inl (by omega))]
  rfl

/-- A character that is neither a mark, a backslash nor a control stands for itself. -/
theorem isPlain_of_mem_encodeChar {c : Char} (hmark : c ≠ '\x22') (hslash : c ≠ '\\')
    (hcontrol : 0x20 ≤ c.toNat) {b : UInt8} (hb : b ∈ encodeChar c) : IsPlain b := by
  by_cases hlt : c.toNat < 0x80
  · rw [Utf8.encodeChar_of_lt hlt, List.mem_singleton] at hb
    have hnat : b.toNat = c.toNat := by
      rw [hb, UInt8.toNat_ofNat']
      omega
    refine ⟨fun h => hmark ?_, fun h => hslash ?_, hnat ▸ hcontrol⟩
    · exact Char.toNat_inj.1 (hnat.symm.trans (congrArg UInt8.toNat h))
    · exact Char.toNat_inj.1 (hnat.symm.trans (congrArg UInt8.toNat h))
  · have hle := Utf8.le_of_mem_encodeChar (Nat.not_lt.1 hlt) hb
    refine ⟨?_, ?_, by omega⟩
    · rintro rfl
      exact absurd hle (by decide)
    · rintro rfl
      exact absurd hle (by decide)

/-- A character as it stands in a string is read as its bytes. -/
theorem EndsString.append_escapeChar {text value rest : Bytes} (h : EndsString text value rest)
    (c : Char) : EndsString (encodeChars (escapeChar c) ++ text) (encodeChar c ++ value) rest := by
  unfold escapeChar
  -- The cases are the escapes, in the order in which they are looked for.
  by_cases hmark : c = '\x22'
  · rw [if_pos hmark, hmark]
    exact h.escape [0x22] rfl
  rw [if_neg hmark]
  by_cases hslash : c = '\\'
  · rw [if_pos hslash, hslash]
    exact h.escape [0x5C] rfl
  rw [if_neg hslash]
  by_cases hcontrol : c.toNat < 0x20
  · rw [if_pos hcontrol]
    by_cases hb : c = '\x08'
    · rw [if_pos hb, hb]
      exact h.escape [0x62] rfl
    rw [if_neg hb]
    by_cases ht : c = '\t'
    · rw [if_pos ht, ht]
      exact h.escape [0x74] rfl
    rw [if_neg ht]
    by_cases hn : c = '\n'
    · rw [if_pos hn, hn]
      exact h.escape [0x6E] rfl
    rw [if_neg hn]
    by_cases hf : c = '\x0c'
    · rw [if_pos hf, hf]
      exact h.escape [0x66] rfl
    rw [if_neg hf]
    by_cases hr : c = '\r'
    · rw [if_pos hr, hr]
      exact h.escape [0x72] rfl
    rw [if_neg hr]
    have hescape := escape?_control hcontrol text
    rw [Char.ofNat_toNat] at hescape
    exact h.escape _ hescape
  · rw [if_neg hcontrol]
    rw [Utf8.encodeChars_cons, Utf8.encodeChars_nil, List.append_nil]
    exact h.append_plain fun b hb =>
      isPlain_of_mem_encodeChar hmark hslash (Nat.not_lt.1 hcontrol) hb

/-- A text as it stands in a string, without the mark in front, is read as its bytes. -/
theorem endsString_written (chars : List Char) (rest : Bytes) :
    EndsString (encodeChars (chars.flatMap escapeChar) ++ 0x22 :: rest) (encodeChars chars) rest := by
  induction chars with
  | nil => exact endsString_mark rest
  | cons c chars ih =>
    rw [List.flatMap_cons, Utf8.encodeChars_append, List.append_assoc]
    exact ih.append_escapeChar c

/-- A string stands between two marks. -/
theorem encodeChars_quoteChars (s : String) (rest : Bytes) :
    encodeChars (quoteChars s) ++ rest
      = 0x22 :: (encodeChars (s.toList.flatMap escapeChar) ++ 0x22 :: rest) := by
  rw [quoteChars, Utf8.encodeChars_append, List.append_assoc, Utf8.encodeChars_append,
    List.append_assoc]
  rfl

/-- A string is read back. -/
theorem stringText_written (s : String) (rest : Bytes) :
    stringText (encodeChars (s.toList.flatMap escapeChar) ++ 0x22 :: rest) = .ok (s, rest) := by
  have hbytes := endsString_written s.toList rest _ (Nat.le_refl _)
  have hdecode : Utf8.decode? (encodeChars s.toList) = some s := Utf8.decode?_encode s
  rw [stringText, hbytes]
  simp only [bind, Except.bind, hdecode]

/-! ## Integers -/

/-- Whether a text does not go on with what could belong to a number. -/
def Delimits (rest : Bytes) : Prop := ∀ b ∈ rest.head?, b = 0x2C ∨ b = 0x5D ∨ b = 0x7D

end JsonReader

namespace NumberText

open JsonReader (Delimits)

/-- The bytes of digits lie together. -/
theorem range_of_digit? {b : UInt8} (h : (digit? b).isSome) : 0x30 ≤ b.toNat ∧ b.toNat ≤ 0x39 := by
  unfold digit? at h
  split at h
  · assumption
  · cases h

/-- The digits of a number. -/
def digits (n : Nat) : List Nat := (Nat.toDigits 10 n).map fun c => c.toNat - 0x30

theorem digits_of_lt {n : Nat} (h : n < 10) : digits n = [n] := by
  rw [digits, Nat.toDigits_of_lt_base h]
  have hvalue : ∀ n < 10, (Nat.digitChar n).toNat - 0x30 = n := by decide
  rw [List.map_singleton, hvalue n h]

theorem digits_of_le {n : Nat} (h : 10 ≤ n) : digits n = digits (n / 10) ++ [n % 10] := by
  have hlast := digits_of_lt (Nat.mod_lt n (by decide : 0 < 10))
  rw [digits, Nat.toDigits_of_lt_base (Nat.mod_lt n (by decide))] at hlast
  rw [digits, Nat.toDigits_of_base_le (by decide) h, List.map_append, hlast, digits]

/-- No digits but those of zero begin with a zero. -/
theorem headD_digits (n : Nat) : (digits n).headD 0 = 0 → n = 0 := by
  induction n using Nat.strongRecOn with
  | ind n ih =>
    by_cases h : n < 10
    · rw [digits_of_lt h]
      exact id
    · rw [digits_of_le (Nat.not_lt.1 h)]
      intro hzero
      have hpos : digits (n / 10) ≠ [] := by
        rw [digits]
        exact fun hnil => Nat.toDigits_ne_nil (List.map_eq_nil_iff.1 hnil)
      have hhead : (digits (n / 10)).headD 0 = 0 := by
        cases hd : digits (n / 10) with
        | nil => exact absurd hd hpos
        | cons d rest => rwa [hd] at hzero
      have := ih (n / 10) (by omega) hhead
      omega

theorem gather_append {n m : Nat} {first : List Nat} (h : gather n first = (m, []))
    (rest : List Nat) : gather n (first ++ rest) = gather m rest := by
  induction first generalizing n with
  | nil =>
    cases h
    rfl
  | cons d first ih =>
    rw [gather] at h
    rw [List.cons_append, gather]
    split at h
    · next hlt =>
      rw [if_pos hlt]
      exact ih h
    · cases h

/-- The digits of a number of at most 64 bits are gathered into it. -/
theorem gather_digits {n : Nat} (h : n < UInt64.size) : gather 0 (digits n) = (n, []) := by
  induction n using Nat.strongRecOn with
  | ind n ih =>
    by_cases hlt : n < 10
    · rw [digits_of_lt hlt, gather, if_pos (by omega), gather, Nat.mul_zero, Nat.zero_add]
    · have hfirst := ih (n / 10) (by omega) (by omega)
      rw [digits_of_le (Nat.not_lt.1 hlt), gather_append hfirst, gather, Nat.div_add_mod, if_pos h,
        gather]

/-- A text after a number has no digit in front. -/
theorem takeDigits_of_delimits {rest : Bytes} (h : Delimits rest) : takeDigits rest = ([], rest) := by
  cases rest with
  | nil => rfl
  | cons b rest =>
    have hb : digit? b = none := by
      rcases h b rfl with rfl | rfl | rfl <;> rfl
    rw [takeDigits, hb]

/-- Digits are read up to the end of the number. -/
theorem takeDigits_append {chars : List Char} (hchars : ∀ c ∈ chars, c.isDigit = true)
    {rest : Bytes} (h : Delimits rest) :
    takeDigits (encodeChars chars ++ rest) = (chars.map fun c => c.toNat - 0x30, rest) := by
  induction chars with
  | nil => exact takeDigits_of_delimits h
  | cons c chars ih =>
    have hdigit := Char.isDigit_iff_toNat.1 (hchars c List.mem_cons_self)
    have hlow : 0x30 ≤ c.toNat := hdigit.1
    have hhigh : c.toNat ≤ 0x39 := hdigit.2
    have hbyte : (UInt8.ofNat c.toNat).toNat = c.toNat := by
      rw [UInt8.toNat_ofNat']
      omega
    have hvalue : digit? (UInt8.ofNat c.toNat) = some (c.toNat - 0x30) := by
      rw [digit?, hbyte, if_pos ⟨hlow, hhigh⟩]
    rw [Utf8.encodeChars_cons, Utf8.encodeChar_of_lt (by omega), List.singleton_append,
      List.cons_append, takeDigits, hvalue, ih fun c' hc' => hchars c' (List.mem_cons_of_mem c hc')]
    rfl

/-- After a number there is neither a fraction nor an exponent. -/
theorem scan_of_delimits {rest : Bytes} (h : Delimits rest) :
    scanFraction? rest = some ([], rest) ∧ scanExponent? rest = some (none, rest) := by
  cases rest with
  | nil => exact ⟨rfl, rfl⟩
  | cons b rest =>
    rcases h b rfl with rfl | rfl | rfl <;> exact ⟨rfl, rfl⟩

/-- The parts of an integer. -/
def ofInteger (n : Int) : NumberText where
  negative := n < 0
  whole := digits n.natAbs
  fraction := []
  exponent := none

/-- What is scanned after the sign. -/
theorem takeSomeDigits?_render (n : Nat) {rest : Bytes} (h : Delimits rest) :
    takeSomeDigits? (encodeChars (Nat.toDigits 10 n) ++ rest) = some (digits n, rest) := by
  have hdigits : ∀ c ∈ Nat.toDigits 10 n, c.isDigit = true :=
    fun c hc => Nat.isDigit_of_mem_toDigits (by decide) (by decide) hc
  rw [takeSomeDigits?, takeDigits_append hdigits h, ← digits]
  cases hd : digits n with
  | nil => exact absurd (List.map_eq_nil_iff.1 hd) Nat.toDigits_ne_nil
  | cons d ds => rfl

/-- The digits of a number have no zero in front, unless it is all there is. -/
theorem not_padded (n : Nat) : ¬ ((digits n).headD 0 = 0 ∧ (digits n).length ≠ 1) := by
  rintro ⟨hzero, hlength⟩
  rw [headD_digits n hzero, digits_of_lt (by decide)] at hlength
  exact hlength rfl

/-- An integer is scanned up to its end. -/
theorem scan?_renderInt (n : Int) {rest : Bytes} (h : Delimits rest) :
    scan? (encodeChars (Numeral.renderInt n).toList ++ rest) = some (ofInteger n, rest) := by
  obtain ⟨hfraction, hexponent⟩ := scan_of_delimits h
  have hdigits := takeSomeDigits?_render n.natAbs h
  by_cases hneg : n < 0
  · have htext : (Numeral.renderInt n).toList = '-' :: Nat.toDigits 10 n.natAbs := by
      simp only [Numeral.renderInt, if_pos hneg, Numeral.render, String.toList_append,
        String.toList_ofList]
      rfl
    rw [htext, ofInteger, decide_eq_true hneg]
    show scan? (0x2D :: (encodeChars (Nat.toDigits 10 n.natAbs) ++ rest)) = _
    rw [scan?]
    simp only [hdigits, not_padded, hfraction, hexponent, Option.bind_eq_bind, Option.bind_some,
      if_false]
  · have htext : (Numeral.renderInt n).toList = Nat.toDigits 10 n.natAbs := by
      rw [Numeral.renderInt, if_neg hneg, Numeral.render, String.toList_ofList]
    -- A minus is no digit.
    have hminus : ∀ after, encodeChars (Nat.toDigits 10 n.natAbs) ++ rest ≠ 0x2D :: after := by
      intro after heq
      rw [heq] at hdigits
      cases hdigits
    rw [htext, ofInteger, decide_eq_false hneg, scan?]
    · simp only [hdigits, not_padded, hfraction, hexponent, Option.bind_eq_bind, Option.bind_some,
        if_false]
    · exact hminus

/-- An integer begins with a minus or with a digit. -/
theorem renderInt_begins (n : Int) : ∃ b rest, encodeChars (Numeral.renderInt n).toList = b :: rest
    ∧ (b = 0x2D ∨ (digit? b).isSome) := by
  have hscan : scan? (encodeChars (Numeral.renderInt n).toList ++ []) = _ := scan?_renderInt n nofun
  rw [List.append_nil] at hscan
  cases htext : encodeChars (Numeral.renderInt n).toList with
  | nil =>
    rw [htext] at hscan
    cases hscan
  | cons b rest =>
    refine ⟨b, rest, rfl, ?_⟩
    by_cases hminus : b = 0x2D
    · exact Or.inl hminus
    · -- Whatever is scanned begins with a digit then.
      refine Or.inr ?_
      rw [htext, scan?] at hscan
      · cases hdigit : digit? b with
        | some d => rfl
        | none =>
          have hdigits : takeSomeDigits? (b :: rest) = none := by
            rw [takeSomeDigits?, takeDigits, hdigit]
          rw [hdigits] at hscan
          cases hscan
      · rintro after ⟨rfl, -⟩
        exact hminus rfl

/-- The number of the parts of an integer of at most 64 bits. -/
theorem value?_ofInteger {n : Int} (bounds : -9223372036854775808 ≤ n ∧ n < 18446744073709551616) :
    (ofInteger n).value? = some (.integer n bounds) := by
  have hgather : gather 0 (digits n.natAbs) = (n.natAbs, []) := by
    refine gather_digits ?_
    show n.natAbs < 18446744073709551616
    omega
  rw [value?, ofInteger, hgather]
  by_cases hneg : n < 0
  · simp only [and_self, if_true, hneg, decide_true, Bool.true_eq_false, false_and, dite_false]
    rw [dif_pos (by omega)]
    congr 2
    omega
  · simp only [and_self, if_true, hneg, decide_false, true_and]
    rw [dif_pos (by omega)]
    congr 2
    omega

end NumberText

namespace JsonReader

/-- An integer of at most 64 bits is read back. -/
theorem strict_number_written (n : Int)
    (bounds : -9223372036854775808 ≤ n ∧ n < 18446744073709551616) {rest : Bytes}
    (h : Delimits rest) :
    strict.number (encodeChars (JsonNumber.integer n bounds).text.toList ++ rest)
      = .ok (.integer n bounds, rest) := by
  have hscan := NumberText.scan?_renderInt n h
  have hvalue := NumberText.value?_ofInteger bounds
  simp only [strict, JsonNumber.text, hscan, hvalue]

end JsonReader

end SealedEnvelope
