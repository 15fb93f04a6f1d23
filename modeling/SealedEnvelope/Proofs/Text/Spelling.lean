import SealedEnvelope.Envelope.Element
import SealedEnvelope.Proofs.Bytes

/-!
# `SealedEnvelope.Proofs.Text.Spelling`: which texts stand for which bytes

Hexadecimal text is read in either case and between blanks. `Text.Respells` says when a
text is another one in this sense, without a reader: white space, the letters of the
other text in any case, white space.

Main statements:

* `Hex.decode_eq_ok_iff`: a text is read as some bytes exactly if it is their
  hexadecimal text in some case. The reader works on the bytes of the text, so a
  character that is no digit, however it is encoded, must be shown to fail.
* `readHex_eq_ok_iff`: with blanks around it, a text is read as some bytes exactly if it
  respells their hexadecimal text.
-/

set_option autoImplicit false

namespace SealedEnvelope

namespace Text

/-- Whether a text is another one with any of its letters in the other case, between
white space. -/
def Respells (spelling text : String) : Prop :=
  ∃ before middle after : List Char,
    spelling.toList = before ++ middle ++ after
      ∧ (∀ c ∈ before, isBlank c = true) ∧ (∀ c ∈ after, isBlank c = true)
      ∧ middle.map Char.toLower = text.toList.map Char.toLower

/-- A text respells itself. -/
theorem Respells.refl (text : String) : Respells text text :=
  ⟨[], text.toList, [], by simp, by simp, by simp, rfl⟩

theorem dropWhile_eq_self_of_none {α : Type} {p : α → Bool} {l : List α}
    (h : ∀ c ∈ l, p c = false) : l.dropWhile p = l := by
  cases l with
  | nil => rfl
  | cons c l => rw [List.dropWhile_cons, h c List.mem_cons_self, if_neg Bool.false_ne_true]

/-- Trimming takes off white space around characters none of which is white space. -/
theorem trim_eq_of_append {text : String} {before middle after : List Char}
    (h : text.toList = before ++ middle ++ after)
    (hbefore : ∀ c ∈ before, isBlank c = true) (hafter : ∀ c ∈ after, isBlank c = true)
    (hmiddle : ∀ c ∈ middle, isBlank c = false) : trim text = String.ofList middle := by
  -- The end is trimmed as the front of the reversed text.
  have hafter' : ∀ c ∈ after.reverse, isBlank c = true :=
    fun c hc => hafter c (List.mem_reverse.1 hc)
  have hmiddle' : ∀ c ∈ middle.reverse, isBlank c = false :=
    fun c hc => hmiddle c (List.mem_reverse.1 hc)
  unfold trim dropEndWhile
  rw [h, List.append_assoc, List.dropWhile_append_of_pos hbefore, String.toList_ofList]
  cases middle with
  | nil =>
    have hnone : after.dropWhile isBlank = [] := by
      rw [← List.append_nil after, List.dropWhile_append_of_pos hafter]
      rfl
    rw [List.nil_append, hnone]
    rfl
  | cons c middle =>
    rw [List.cons_append, List.dropWhile_cons, hmiddle c List.mem_cons_self,
      if_neg Bool.false_ne_true, ← List.cons_append, List.reverse_append,
      List.dropWhile_append_of_pos hafter', dropWhile_eq_self_of_none hmiddle',
      List.reverse_reverse]

/-- A text without white space is not changed by trimming. -/
theorem trim_eq_self {text : String} (h : ∀ c ∈ text.toList, isBlank c = false) :
    trim text = text := by
  have happend : text.toList = [] ++ text.toList ++ [] := by simp
  rw [trim_eq_of_append happend (by simp) (by simp) h, String.ofList_toList]

/-- What trimming takes off is white space around what it leaves. -/
theorem exists_append_trim (text : String) :
    ∃ before after : List Char, text.toList = before ++ (trim text).toList ++ after
      ∧ (∀ c ∈ before, isBlank c = true) ∧ (∀ c ∈ after, isBlank c = true) := by
  have hall : ∀ l : List Char, ∀ c ∈ l.takeWhile isBlank, isBlank c = true :=
    fun l c hc => List.all_eq_true.1 (List.all_takeWhile (l := l)) c hc
  let rest := text.toList.dropWhile isBlank
  refine ⟨text.toList.takeWhile isBlank, (rest.reverse.takeWhile isBlank).reverse, ?_,
    hall _, fun c hc => hall _ c (List.mem_reverse.1 hc)⟩
  have htrim : (trim text).toList = (rest.reverse.dropWhile isBlank).reverse := by
    simp [trim, dropEndWhile, rest]
  rw [htrim, List.append_assoc, ← List.reverse_append, List.takeWhile_append_dropWhile,
    List.reverse_reverse, List.takeWhile_append_dropWhile]

end Text

namespace Utf8

/-- A character of one byte is encoded as its number. -/
theorem encodeChar_of_lt {c : Char} (h : c.toNat < 0x80) :
    encodeChar c = [UInt8.ofNat c.toNat] := by
  simp only [encodeChar, if_pos h]

/-- A character of several bytes has one that is the number of no character of one byte. -/
theorem exists_le_of_mem_encodeChar {c : Char} (h : 0x80 ≤ c.toNat) :
    ∃ b ∈ encodeChar c, 0x80 ≤ b.toNat := by
  have hlow : ∀ n : Nat, 0x80 ≤ (UInt8.ofNat (0x80 + n % 0x40)).toNat := by
    intro n
    rw [UInt8.toNat_ofNat']
    omega
  refine ⟨UInt8.ofNat (0x80 + c.toNat % 0x40), ?_, hlow _⟩
  simp only [encodeChar, if_neg (Nat.not_lt.2 h)]
  split
  · simp
  · split <;> simp

/-- The bytes of a text of characters of one byte are their numbers. -/
theorem encode_of_lt {text : String} (h : ∀ c ∈ text.toList, c.toNat < 0x80) :
    encode text = text.toList.map fun c => UInt8.ofNat c.toNat := by
  unfold encode
  generalize text.toList = chars at h
  induction chars with
  | nil => rfl
  | cons c chars ih =>
    rw [List.flatMap_cons, List.map_cons, encodeChar_of_lt (h c List.mem_cons_self),
      ih fun c' hc' => h c' (List.mem_cons_of_mem c hc')]
    rfl

/-- A text none of whose bytes is large has only characters of one byte. -/
theorem lt_of_encode_lt {text : String} (h : ∀ b ∈ encode text, b.toNat < 0x80) :
    ∀ c ∈ text.toList, c.toNat < 0x80 := by
  intro c hc
  cases Nat.lt_or_ge c.toNat 0x80 with
  | inl hlt => exact hlt
  | inr hle =>
    obtain ⟨b, hb, hlarge⟩ := exists_le_of_mem_encodeChar hle
    exact absurd (h b (List.mem_flatMap.2 ⟨c, hc, hb⟩)) (Nat.not_lt.2 hlarge)

end Utf8

namespace Hex

/-- The character whose number is a byte, in lower case. -/
def lowerChar (b : UInt8) : Char := (Char.ofNat b.toNat).toLower

/-- Every byte that has a value as a digit is, in lower case, the digit of this value. -/
theorem lowerChar_of_digitValue? {b : UInt8} {n : Nat} (h : digitValue? b = some n) :
    n < 16 ∧ b.toNat < 0x80 ∧ lowerChar b = digit n := by
  -- A byte is a digit or none, which is looked up for each of the 256.
  have key : ∀ b : UInt8, ∀ n ∈ digitValue? b,
      n < 16 ∧ b.toNat < 0x80 ∧ lowerChar b = digit n := by
    apply forall_byte
    decide +kernel
  exact key b n h

/-- A byte that is, in lower case, the digit of a number has this number as its value. -/
theorem digitValue?_of_lowerChar {b : UInt8} {n : Nat} (hn : n < 16) (h : lowerChar b = digit n) :
    digitValue? b = some n := by
  have key : ∀ b : UInt8, ∀ n : Fin 16, lowerChar b = digit n.val →
      digitValue? b = some n.val := by
    apply forall_byte
    decide +kernel
  exact key b ⟨n, hn⟩ h

/-- Pairs of digits are read as some bytes exactly if they are, in lower case, the digits
of these bytes. -/
theorem decodePairs_eq_ok_iff {position : Nat} {digits bytes : Bytes} :
    decodePairs position digits = .ok bytes
      ↔ digits.map lowerChar = bytes.flatMap encodeByte := by
  -- The cases are those of the reader: no digit is left, one is left, the first of a pair is
  -- none, the second is none, and both have a value.
  fun_induction decodePairs position digits generalizing bytes with
  | case1 =>
    cases bytes with
    | nil => simp
    | cons b bytes => simp [encodeByte]
  | case2 =>
    cases bytes with
    | nil => simp
    | cons b bytes => simp [encodeByte]
  | case3 position high low rest hhigh =>
    simp only [reduceCtorEq, false_iff]
    intro h
    cases bytes with
    | nil => simp at h
    | cons b bytes =>
      have hb := b.toNat_lt
      simp only [List.map_cons, List.flatMap_cons, encodeByte, List.cons_append,
        List.cons.injEq] at h
      rw [digitValue?_of_lowerChar (by omega) h.1] at hhigh
      cases hhigh
  | case4 position high low rest h' hlow hhigh =>
    simp only [reduceCtorEq, false_iff]
    intro h
    cases bytes with
    | nil => simp at h
    | cons b bytes =>
      have hb := b.toNat_lt
      simp only [List.map_cons, List.flatMap_cons, encodeByte, List.cons_append,
        List.cons.injEq] at h
      rw [digitValue?_of_lowerChar (by omega) h.2.1] at hlow
      cases hlow
  | case5 position high low rest h' l' hlow hhigh ih =>
    -- A pair of digits and the byte that they make determine each other.
    obtain ⟨hh, -, hhchar⟩ := lowerChar_of_digitValue? hhigh
    obtain ⟨hl, -, hlchar⟩ := lowerChar_of_digitValue? hlow
    have hbyte : (UInt8.ofNat (16 * h' + l')).toNat = 16 * h' + l' := by
      rw [UInt8.toNat_ofNat']
      omega
    constructor
    · intro h
      cases hrest : decodePairs (position + 2) rest with
      | error e => simp [hrest, Except.map] at h
      | ok others =>
        simp only [hrest, Except.map, Except.ok.injEq] at h
        subst h
        have hdiv : (16 * h' + l') / 16 = h' := by omega
        have hmod : (16 * h' + l') % 16 = l' := by omega
        simp only [List.map_cons, List.flatMap_cons, encodeByte, hbyte, hdiv, hmod, hhchar, hlchar,
          ih.1 hrest, List.cons_append, List.nil_append]
    · intro h
      cases bytes with
      | nil => simp at h
      | cons b bytes =>
        have hb := b.toNat_lt
        simp only [List.map_cons, List.flatMap_cons, encodeByte, List.cons_append, List.nil_append,
          List.cons.injEq] at h
        obtain ⟨hfirst, hsecond, hrest⟩ := h
        have hh' := digitValue?_of_lowerChar (by omega) hfirst
        have hl' := digitValue?_of_lowerChar (by omega) hsecond
        rw [hhigh, Option.some.injEq] at hh'
        rw [hlow, Option.some.injEq] at hl'
        have hsum : 16 * h' + l' = b.toNat := by omega
        rw [ih.2 hrest, hsum, UInt8.ofNat_toNat]
        rfl

/-- The digits of some bytes are two for each. -/
theorem length_flatMap_encodeByte (bytes : Bytes) :
    (bytes.flatMap encodeByte).length = 2 * bytes.length := by
  induction bytes with
  | nil => rfl
  | cons b bytes ih =>
    rw [List.flatMap_cons, List.length_append, ih]
    simp only [encodeByte, List.length_cons, List.length_nil]
    omega

/-- Digits are read as some bytes exactly if they are, in lower case, the digits of these
bytes: no odd number of them is. -/
theorem decodeBytes_eq_ok_iff {digits bytes : Bytes} :
    decodeBytes digits = .ok bytes ↔ digits.map lowerChar = bytes.flatMap encodeByte := by
  unfold decodeBytes
  split
  · next hodd =>
    simp only [reduceCtorEq, false_iff]
    intro h
    have hlen := congrArg List.length h
    rw [List.length_map, length_flatMap_encodeByte] at hlen
    omega
  · exact decodePairs_eq_ok_iff

/-- The digits of bytes are those of numbers below sixteen. -/
theorem exists_digit_of_mem {bytes : Bytes} {c : Char} (h : c ∈ bytes.flatMap encodeByte) :
    ∃ n, n < 16 ∧ c = digit n := by
  obtain ⟨b, -, hc⟩ := List.mem_flatMap.1 h
  have hb := b.toNat_lt
  simp only [encodeByte, List.mem_cons, List.not_mem_nil, or_false] at hc
  rcases hc with rfl | rfl
  · exact ⟨b.toNat / 16, by omega, rfl⟩
  · exact ⟨b.toNat % 16, by omega, rfl⟩

/-- A character that is, in lower case, a digit has one byte and is not white space. -/
theorem of_toLower_eq_digit {c : Char} {n : Nat} (hn : n < 16) (h : c.toLower = digit n) :
    c.toNat < 0x80 ∧ Text.isBlank c = false := by
  have hdigit : ∀ n : Fin 16, (digit n.val).toNat < 0x80 := by decide
  -- Only letters of one byte are changed, and a digit that is not changed has one byte.
  have hlt : c.toNat < 0x80 := by
    unfold Char.toLower at h
    split at h
    · next hupper =>
      have hle : c.val.toNat ≤ 90 := UInt32.le_iff_toNat_le.1 hupper.2
      show c.val.toNat < 0x80
      omega
    · rw [h]
      exact hdigit ⟨n, hn⟩
  have key : ∀ i : Fin 128, ∀ n : Fin 16, (Char.ofNat i.val).toLower = digit n.val →
      Text.isBlank (Char.ofNat i.val) = false := by decide +kernel
  refine ⟨hlt, ?_⟩
  have := key ⟨c.toNat, hlt⟩ ⟨n, hn⟩
  simp only [Char.ofNat_toNat] at this
  exact this h

/-- Lower case does not change the digits of bytes. -/
theorem map_toLower_flatMap_encodeByte (bytes : Bytes) :
    (bytes.flatMap encodeByte).map Char.toLower = bytes.flatMap encodeByte := by
  have key : ∀ n : Fin 16, (digit n.val).toLower = digit n.val := by decide
  refine (List.map_congr_left fun c hc => ?_).trans (List.map_id _)
  obtain ⟨n, hn, rfl⟩ := exists_digit_of_mem hc
  exact key ⟨n, hn⟩

theorem map_toLower_encode (bytes : Bytes) :
    (encode bytes).toList.map Char.toLower = bytes.flatMap encodeByte := by
  rw [encode, String.toList_ofList, map_toLower_flatMap_encodeByte]

/-- Every character of a text whose lower case is the digits of some bytes is, in lower
case, a digit. -/
theorem of_mem_of_map_toLower {chars : List Char} {bytes : Bytes}
    (h : chars.map Char.toLower = bytes.flatMap encodeByte) {c : Char} (hc : c ∈ chars) :
    c.toNat < 0x80 ∧ Text.isBlank c = false := by
  obtain ⟨n, hn, hdigit⟩ := exists_digit_of_mem (h ▸ List.mem_map_of_mem (f := Char.toLower) hc)
  exact of_toLower_eq_digit hn hdigit

theorem map_lowerChar_encode {text : String} (h : ∀ c ∈ text.toList, c.toNat < 0x80) :
    (Utf8.encode text).map lowerChar = text.toList.map Char.toLower := by
  rw [Utf8.encode_of_lt h, List.map_map]
  refine List.map_congr_left fun c hc => ?_
  have hlt := h c hc
  have hbyte : (UInt8.ofNat c.toNat).toNat = c.toNat := by
    rw [UInt8.toNat_ofNat']
    omega
  simp only [Function.comp_apply, lowerChar, hbyte, Char.ofNat_toNat]

/-- A text is read as some bytes exactly if it is, in lower case, their hexadecimal text. -/
theorem decode_eq_ok_iff {text : String} {bytes : Bytes} :
    decode text = .ok bytes ↔ text.toList.map Char.toLower = (encode bytes).toList := by
  unfold decode encode
  rw [decodeBytes_eq_ok_iff, String.toList_ofList]
  constructor
  · intro h
    -- Every byte of the text is a digit, so every character has one byte only.
    have hbytes : ∀ b ∈ Utf8.encode text, b.toNat < 0x80 := by
      intro b hb
      obtain ⟨n, hn, hdigit⟩ := exists_digit_of_mem (h ▸ List.mem_map_of_mem (f := lowerChar) hb)
      exact (lowerChar_of_digitValue? (digitValue?_of_lowerChar hn hdigit)).2.1
    rwa [map_lowerChar_encode (Utf8.lt_of_encode_lt hbytes)] at h
  · intro h
    rwa [map_lowerChar_encode fun c hc => (of_mem_of_map_toLower h hc).1]

/-- The text of bytes has two bytes for each. -/
theorem length_encode (bytes : Bytes) : (Utf8.encode (encode bytes)).length = 2 * bytes.length := by
  have hdigits : ∀ c ∈ (encode bytes).toList, c.toNat < 0x80 := by
    intro c hc
    rw [encode, String.toList_ofList] at hc
    exact (of_mem_of_map_toLower (map_toLower_flatMap_encodeByte bytes) hc).1
  rw [Utf8.encode_of_lt hdigits, List.length_map, encode, String.toList_ofList,
    length_flatMap_encodeByte]

end Hex

namespace Text.Respells

variable {spelling : String} {bytes : Bytes}

/-- A text that spells bytes does so without the white space around it. -/
theorem trim (h : Respells spelling (Hex.encode bytes)) :
    Respells (Text.trim spelling) (Hex.encode bytes) := by
  obtain ⟨before, middle, after, htext, hbefore, hafter, hmiddle⟩ := h
  have hdigits := hmiddle.trans (Hex.map_toLower_encode bytes)
  rw [Text.trim_eq_of_append htext hbefore hafter fun c hc => (Hex.of_mem_of_map_toLower hdigits hc).2]
  exact ⟨[], middle, [], by simp, by simp, by simp, hmiddle⟩

/-- It has nothing in it but white space and digits. -/
theorem isBlank_or_exists_digit (h : Respells spelling (Hex.encode bytes)) {c : Char}
    (hc : c ∈ spelling.toList) : Text.isBlank c = true ∨ ∃ n < 16, c.toLower = Hex.digit n := by
  obtain ⟨before, middle, after, htext, hbefore, hafter, hmiddle⟩ := h
  have hdigits := hmiddle.trans (Hex.map_toLower_encode bytes)
  rw [htext, List.mem_append, List.mem_append] at hc
  rcases hc with (hc | hc) | hc
  · exact .inl (hbefore c hc)
  · exact .inr (Hex.exists_digit_of_mem (hdigits ▸ List.mem_map_of_mem (f := Char.toLower) hc))
  · exact .inl (hafter c hc)

end Text.Respells

/-- A text is read as some bytes exactly if it respells their hexadecimal text. -/
theorem readHex_eq_ok_iff {text : String} {bytes : Bytes} :
    readHex text = .ok bytes ↔ Text.Respells text (Hex.encode bytes) := by
  have hlower : (Hex.encode bytes).toList.map Char.toLower = (Hex.encode bytes).toList := by
    rw [Hex.encode, String.toList_ofList, Hex.map_toLower_flatMap_encodeByte]
  have hread : readHex text = .ok bytes ↔ Hex.decode (Text.trim text) = .ok bytes := by
    unfold readHex
    cases Hex.decode (Text.trim text) with
    | error fault => exact iff_of_false (fun h => nomatch h) fun h => nomatch h
    | ok found =>
      exact ⟨fun h => congrArg Except.ok (Except.ok.inj h),
        fun h => congrArg Except.ok (Except.ok.inj h)⟩
  rw [hread, Hex.decode_eq_ok_iff]
  constructor
  · intro h
    obtain ⟨before, after, htext, hbefore, hafter⟩ := Text.exists_append_trim text
    exact ⟨before, _, after, htext, hbefore, hafter, by rw [h, hlower]⟩
  · rintro ⟨before, middle, after, htext, hbefore, hafter, hmiddle⟩
    rw [hlower] at hmiddle
    have hdigits : middle.map Char.toLower = bytes.flatMap Hex.encodeByte := by
      rw [hmiddle, Hex.encode, String.toList_ofList]
    -- No digit is white space, so trimming leaves the whole of the middle.
    rw [Text.trim_eq_of_append htext hbefore hafter fun c hc =>
      (Hex.of_mem_of_map_toLower hdigits hc).2, String.toList_ofList, hmiddle]

/-- A text that is the hexadecimal text of no bytes is not read. -/
theorem readHex_of_forall_not {text : String}
    (h : ∀ bytes : Bytes, ¬ Text.Respells text (Hex.encode bytes)) :
    readHex text = .error .invalidHex := by
  cases hread : readHex text with
  | ok bytes => exact absurd (readHex_eq_ok_iff.1 hread) (h bytes)
  | error fault =>
    rw [readHex] at hread
    cases hdecode : Hex.decode (Text.trim text) with
    | ok bytes =>
      rw [hdecode] at hread
      cases hread
    | error position =>
      rw [hdecode] at hread
      exact hread.symm

end SealedEnvelope
