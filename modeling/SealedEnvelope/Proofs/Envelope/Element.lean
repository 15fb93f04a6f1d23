import SealedEnvelope.Proofs.Outcome
import SealedEnvelope.Proofs.Text.Spelling
import SealedEnvelope.Proofs.Wire.Framing

/-!
# `SealedEnvelope.Proofs.Envelope.Element`: one element and what follows it

Everything that is read off the wire is read from the front: an element, and then the bytes that
are left. `encode` and `read` are inverse to each other in this sense, so that no element is the
beginning of a longer one.

As text an element is read in either case, between white space, and with any pairs of digits after
it. `Hex.Continues` says so of two texts, without a reader.

Main statements:

* `Hex.continues_encode_iff`: what continues the text of some bytes respells the text of these bytes
  and further ones;
* `Element.ofHex_eq_ok_iff`: a text is read as a value exactly if it continues the text of its
  element;
* `Element.encode_read_inverse`: both readers on all elements and whatever follows them.
-/

set_option autoImplicit false

namespace SealedEnvelope

open LengthValue (ceiling element encode read)

/-! ## Pairs of digits -/

namespace Hex

/-- The digits, in either case. -/
def digits : List Char := "0123456789abcdefABCDEF".toList

/-- Whether characters are digits, and an even number of them. -/
def Pairs (chars : List Char) : Prop := chars.length % 2 = 0 ∧ ∀ c ∈ chars, c ∈ digits

/-- The digits are the characters that are, in lower case, the digit of a number. -/
theorem mem_digits_iff {c : Char} : c ∈ digits ↔ ∃ n < 16, c.toLower = digit n := by
  constructor
  · have key : digits.all (fun c => ((List.range 16).map digit).contains c.toLower) = true := by decide
    intro hc
    have hmem := List.contains_iff_mem.1 (List.all_eq_true.1 key c hc)
    obtain ⟨n, hn, hdigit⟩ := List.mem_map.1 hmem
    exact ⟨n, List.mem_range.1 hn, hdigit.symm⟩
  · rintro ⟨n, hn, h⟩
    have key : ∀ i : Fin 128, ∀ n : Fin 16, (Char.ofNat i.val).toLower = digit n.val →
        Char.ofNat i.val ∈ digits := by
      decide +kernel
    have hmem := key ⟨c.toNat, (of_toLower_eq_digit hn h).1⟩ ⟨n, hn⟩
    simp only [Char.ofNat_toNat] at hmem
    exact hmem h

/-- Two digits are those of a byte. -/
theorem exists_encodeByte {high low : Char} (hhigh : high ∈ digits) (hlow : low ∈ digits) :
    ∃ b : UInt8, [high, low].map Char.toLower = encodeByte b := by
  obtain ⟨m, hm, hhigh⟩ := mem_digits_iff.1 hhigh
  obtain ⟨n, hn, hlow⟩ := mem_digits_iff.1 hlow
  have hbyte : (UInt8.ofNat (16 * m + n)).toNat = 16 * m + n := by
    rw [UInt8.toNat_ofNat']
    omega
  have hdiv : (16 * m + n) / 16 = m := by omega
  have hmod : (16 * m + n) % 16 = n := by omega
  refine ⟨UInt8.ofNat (16 * m + n), ?_⟩
  rw [encodeByte, hbyte, hdiv, hmod, ← hhigh, ← hlow]
  rfl

/-- Pairs of digits are the digits of bytes. -/
theorem Pairs.exists_bytes {chars : List Char} (h : Pairs chars) :
    ∃ bytes : Bytes, chars.map Char.toLower = bytes.flatMap encodeByte := by
  match chars with
  | [] => exact ⟨[], rfl⟩
  | [c] => cases h.1
  | high :: low :: rest =>
    have hlength : (rest.length + 2) % 2 = 0 := h.1
    have hrest : Pairs rest := by
      refine ⟨by omega, fun c hc => ?_⟩
      exact h.2 c (List.mem_cons_of_mem _ (List.mem_cons_of_mem _ hc))
    obtain ⟨b, hb⟩ := exists_encodeByte (h.2 high List.mem_cons_self)
      (h.2 low (List.mem_cons_of_mem _ List.mem_cons_self))
    obtain ⟨bytes, hbytes⟩ := hrest.exists_bytes
    refine ⟨b :: bytes, ?_⟩
    rw [List.flatMap_cons, ← hb, ← hbytes]
    rfl

/-- Bytes are written as pairs of digits, in any case. -/
theorem Pairs.of_map_toLower {chars : List Char} {bytes : Bytes}
    (h : chars.map Char.toLower = bytes.flatMap encodeByte) : Pairs chars := by
  refine ⟨?_, fun c hc => ?_⟩
  · have hlength := congrArg List.length h
    rw [List.length_map, length_flatMap_encodeByte] at hlength
    omega
  · obtain ⟨n, hn, hdigit⟩ := exists_digit_of_mem (h ▸ List.mem_map_of_mem (f := Char.toLower) hc)
    exact mem_digits_iff.2 ⟨n, hn, hdigit⟩

/-- Whether a text is another one with any of its letters in the other case and any pairs of digits
after it, between white space. -/
def Continues (spelling text : String) : Prop :=
  ∃ before middle pairs after : List Char,
    spelling.toList = before ++ middle ++ pairs ++ after
      ∧ (∀ c ∈ before, Text.isBlank c = true) ∧ (∀ c ∈ after, Text.isBlank c = true)
      ∧ middle.map Char.toLower = text.toList.map Char.toLower ∧ Pairs pairs

/-- The digits that follow are those of further bytes. -/
theorem continues_encode_iff {spelling : String} {bytes : Bytes} :
    Continues spelling (Hex.encode bytes)
      ↔ ∃ extra : Bytes, Text.Respells spelling (Hex.encode (bytes ++ extra)) := by
  constructor
  · rintro ⟨before, middle, pairs, after, htext, hbefore, hafter, hmiddle, hpairs⟩
    obtain ⟨extra, hextra⟩ := hpairs.exists_bytes
    refine ⟨extra, before, middle ++ pairs, after, ?_, hbefore, hafter, ?_⟩
    · rw [htext, List.append_assoc before]
    · rw [List.map_append, hmiddle, hextra, map_toLower_encode, map_toLower_encode,
        List.flatMap_append]
  · rintro ⟨extra, before, whole, after, htext, hbefore, hafter, hwhole⟩
    -- The digits of the first bytes are cut off in the case in which they stand.
    rw [map_toLower_encode, List.flatMap_append] at hwhole
    obtain ⟨middle, pairs, rfl, hmiddle, hpairs⟩ := List.map_eq_append_iff.1 hwhole
    refine ⟨before, middle, pairs, after, ?_, hbefore, hafter, ?_, .of_map_toLower hpairs⟩
    · rw [htext, ← List.append_assoc before]
    · rw [hmiddle, map_toLower_encode]

end Hex

/-! ## Elements -/

namespace LengthValue

/-- An element that another one begins with is that other one. -/
theorem eq_of_element_prefix {value value' : Bytes} (hlt : value.length < ceiling)
    (hlt' : value'.length < ceiling) (h : element value <+: element value') : value = value' := by
  obtain ⟨tail, htail⟩ := h
  have hread := read_encode_append (encode_of_lt hlt) tail
  have hread' := read_encode_append (encode_of_lt hlt') []
  rw [List.append_nil, ← htail, hread, Except.ok.injEq, Prod.mk.injEq] at hread'
  exact hread'.1

end LengthValue

namespace Element

/-- A value below the ceiling has a text. -/
theorem toHex_of_lt {value : Bytes} (h : value.length < ceiling) :
    toHex value = .ok (Hex.encode (element value)) := by
  rw [toHex, LengthValue.encode_of_lt h]
  rfl

/-- A text is read as a value exactly if it continues the text of its element. -/
theorem ofHex_eq_ok_iff {text : String} {value : Bytes} :
    ofHex text = .ok value
      ↔ value.length < ceiling ∧ Hex.Continues text (Hex.encode (element value)) := by
  rw [Hex.continues_encode_iff]
  constructor
  · intro h
    obtain ⟨bytes, hread, h⟩ := exists_of_bind_eq_ok h
    obtain ⟨first, extra, hfirst, rfl⟩ :=
      LengthValue.decode_eq_ok_iff.1 (EnvelopeError.onWire_eq_ok_iff.1 h)
    obtain ⟨hlt, rfl⟩ := LengthValue.encode_eq_ok_iff.1 hfirst
    exact ⟨hlt, extra, readHex_eq_ok_iff.1 hread⟩
  · rintro ⟨hlt, extra, hspelling⟩
    have hdecode := LengthValue.decode_eq_ok_iff.2 (LengthValue.begins_element hlt extra)
    rw [ofHex, readHex_eq_ok_iff.2 hspelling]
    show EnvelopeError.onWire (LengthValue.decode (element value ++ extra)) = .ok value
    rw [hdecode]
    rfl

/-- An element and what follows it. A value below the ceiling is written as its length, in four
bytes with the most significant first, and itself, and is read back with exactly the bytes that
follow. What is read as a value and a rest is what the value is written as, and the rest. So no
element is a proper prefix of another one. The text of an element is read as the value in any case,
with any pairs of digits after it and between white space, and no other text is. -/
theorem encode_read_inverse :
    (∀ value : Bytes, value.length < ceiling →
        encode value = .ok (bigEndian 4 value.length ++ value)
          ∧ ∀ tail, read (bigEndian 4 value.length ++ value ++ tail) = .ok (value, tail))
      ∧ (∀ bytes value rest : Bytes, read bytes = .ok (value, rest) →
          ∃ first, encode value = .ok first ∧ bytes = first ++ rest)
      ∧ (∀ value value' first first' : Bytes, encode value = .ok first → encode value' = .ok first' →
          first <+: first' → first = first')
      ∧ (∀ value : Bytes, value.length < ceiling →
          ∃ text, toHex value = .ok text
            ∧ ∀ spelling, ofHex spelling = .ok value ↔ Hex.Continues spelling text) := by
  refine ⟨fun value hlt => ?_, fun bytes value rest => LengthValue.encode_of_read,
    fun value value' first first' h h' hfirst => ?_, fun value hlt => ?_⟩
  · have hencode : encode value = .ok (bigEndian 4 value.length ++ value) :=
      LengthValue.encode_of_lt hlt
    exact ⟨hencode, LengthValue.read_encode_append hencode⟩
  · obtain ⟨hlt, rfl⟩ := LengthValue.encode_eq_ok_iff.1 h
    obtain ⟨hlt', rfl⟩ := LengthValue.encode_eq_ok_iff.1 h'
    exact congrArg element (LengthValue.eq_of_element_prefix hlt hlt' hfirst)
  · exact ⟨_, toHex_of_lt hlt, fun spelling => ofHex_eq_ok_iff.trans (and_iff_right hlt)⟩

/-- An element of one byte in front of another element, and its text in mixed case with a further
pair of digits. -/
theorem encode_read_inverse_oneByte :
    read [0, 0, 0, 1, 0xAB, 0, 0, 0, 0] = .ok ([0xAB], [0, 0, 0, 0])
      ∧ encode [0xAB] = .ok [0, 0, 0, 1, 0xAB]
      ∧ ofHex "\t00000001aBFf\n" = .ok [0xAB] := by
  obtain ⟨hencode, hread⟩ := encode_read_inverse.1 [0xAB] (by decide)
  obtain ⟨text, htext, hof⟩ := encode_read_inverse.2.2.2 [0xAB] (by decide)
  have hdigits : toHex [0xAB] = .ok "00000001ab" := by rfl
  obtain rfl : "00000001ab" = text := Except.ok.inj (hdigits.symm.trans htext)
  have hpairs : Hex.Pairs ['F', 'f'] :=
    ⟨rfl, List.forall_mem_cons.2 ⟨by decide, List.forall_mem_singleton.2 (by decide)⟩⟩
  have hcontinues : Hex.Continues "\t00000001aBFf\n" "00000001ab" :=
    ⟨['\t'], "00000001aB".toList, ['F', 'f'], ['\n'], by decide +kernel,
      List.forall_mem_singleton.2 (by decide), List.forall_mem_singleton.2 (by decide),
      by decide +kernel, hpairs⟩
  exact ⟨hread [0, 0, 0, 0], hencode, (hof _).2 hcontinues⟩

end Element

end SealedEnvelope
