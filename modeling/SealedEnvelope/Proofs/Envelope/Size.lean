import SealedEnvelope.Proofs.Envelope.Layers
import SealedEnvelope.Proofs.Time.Timestamp

/-!
# `SealedEnvelope.Proofs.Envelope.Size`: how long an envelope is

All fields of a data block but three have lengths of their own: only the prekey, the payload and,
outside of the years 0 to 9999, the time make one envelope longer than another. They are encrypted
in whole blocks, so that the length of the envelope tells little of their lengths.

Main statements:

* `Envelope.length_le_of_mem_layers`: no value within an envelope is longer than what is in it;
* `Envelope.exists_pack_of_stampedLength_lt`: an envelope that stays under the ceiling is made, and
  how long it is;
* `Envelope.exists_pack_of_lt`: the same in the years 0 to 9999;
* `Envelope.pack_iff_fits`: when an envelope is made in these years, how long it is then, and why it
  is refused otherwise.
-/

set_option autoImplicit false

namespace SealedEnvelope

open LengthValue (ceiling element length_element wireLength length_flatMap_element length_le_wireLength)

/-! ## The time -/

theorem Numeral.length_renderPadded_le {width bound n : Nat} (hwidth : width ≤ bound)
    (hbound : 0 < bound) (h : n < Nat.pow 10 bound) :
    (renderPadded width n).toList.length ≤ bound := by
  have hlen := (Nat.length_toDigits_le_iff (b := 10) (by decide) hbound).2 h
  rw [renderPadded, String.toList_ofList, List.length_append, List.length_replicate]
  omega

namespace Rfc3339

/-- The years 0 to 9999 are written in four characters. -/
theorem length_writeYear {year : Int} (hyear : 0 ≤ year) (hyear' : year ≤ 9999) :
    (writeYear year).toList.length = 4 := by
  rw [writeYear, if_neg (Int.not_lt.2 hyear), if_pos hyear']
  refine Numeral.length_renderPadded (by decide) ?_
  show _ < 10000
  omega

/-- A year of up to six digits is written in up to seven characters. -/
theorem length_writeYear_le {year : Int} (hyear : year.natAbs < 1000000) :
    (writeYear year).toList.length ≤ 7 := by
  have hdigits : (Numeral.renderPadded 4 year.natAbs).toList.length ≤ 6 :=
    Numeral.length_renderPadded_le (by decide) (by decide) hyear
  have hsign : ∀ sign : String, sign.toList.length = 1 →
      (sign ++ Numeral.renderPadded 4 year.natAbs).toList.length ≤ 7 := by
    intro sign hsign
    rw [String.toList_append, List.length_append, hsign]
    omega
  unfold writeYear
  split
  · exact hsign "-" rfl
  · split
    · exact Nat.le_succ_of_le hdigits
    · exact hsign "+" rfl

/-- All but the year of a stamped time has a length of its own. -/
theorem length_writeMillis (t : Instant) :
    (writeMillis t).toList.length = (writeYear t.year).toList.length + 20 := by
  obtain ⟨hday, hmonth⟩ := Date.lt_of_isValid (Date.isValid_ofDays (t.seconds / 86400))
  have hnanos := t.nanos_lt
  have hsecond := t.secondOfDay_lt
  have hhour : t.secondOfDay / 3600 < Nat.pow 10 2 := by
    show _ < 100
    omega
  have hminute : t.secondOfDay / 60 % 60 < Nat.pow 10 2 := by
    show _ < 100
    omega
  have hleap : t.secondOfDay % 60 + t.nanos / nanosPerSecond < Nat.pow 10 2 := by
    show _ < 100
    rw [nanosPerSecond] at hnanos ⊢
    omega
  have hmillis : t.nanos % nanosPerSecond / 1000000 < Nat.pow 10 3 := by
    show _ < 1000
    rw [nanosPerSecond]
    omega
  have htwo {n : Nat} (h : n < Nat.pow 10 2) := Numeral.length_renderPadded (by decide) h
  rw [toList_writeMillis]
  simp only [List.length_append, List.length_cons, List.length_nil, htwo hmonth, htwo hday,
    htwo hhour, htwo hminute, htwo hleap, Numeral.length_renderPadded (by decide) hmillis]
  rfl

/-- No character of a stamped time needs two bytes. -/
theorem lt_of_mem_writeMillis (t : Instant) : ∀ c ∈ (writeMillis t).toList, c.toNat < 0x80 := by
  have hdigits {width n : Nat} : ∀ c ∈ (Numeral.renderPadded width n).toList, c.toNat < 0x80 := by
    intro c hc
    have hdigit := Char.isDigit_iff_toNat.1 (Numeral.isDigit_of_mem_renderPadded hc)
    exact Nat.lt_of_le_of_lt hdigit.2 (by decide)
  have hsign : ∀ sign : Char, sign.toNat < 0x80 → ∀ n : Nat,
      ∀ c ∈ (String.singleton sign ++ Numeral.renderPadded 4 n).toList, c.toNat < 0x80 := by
    intro sign hsign n
    rw [String.toList_append, String.toList_singleton]
    exact List.forall_mem_cons.2 ⟨hsign, hdigits⟩
  have hyear : ∀ c ∈ (writeYear t.year).toList, c.toNat < 0x80 := by
    unfold writeYear
    split
    · exact hsign '-' (by decide) _
    · split
      · exact hdigits
      · exact hsign '+' (by decide) _
  rw [toList_writeMillis]
  simp only [List.forall_mem_append, List.forall_mem_cons]
  exact ⟨hyear, by decide, hdigits, by decide, hdigits, by decide, hdigits, by decide,
    hdigits, by decide, hdigits, by decide, hdigits, by decide, nofun⟩

end Rfc3339

/-- The number of bytes of a stamped time. -/
theorem DataBlock.length_time (t : Instant) :
    (Utf8.encode (Rfc3339.writeMillis t)).length = (Rfc3339.writeYear t.year).toList.length + 20 := by
  rw [Utf8.encode_of_lt (Rfc3339.lt_of_mem_writeMillis t), List.length_map,
    Rfc3339.length_writeMillis]

/-! ## The data block -/

namespace Envelope

/-- The number of bytes of a payload as elements one after another. -/
def payloadLength (payload : List Bytes) : Nat := (payload.flatMap element).length

/-- The number of bytes of what is in the envelope of a payload: the ciphertext and the
signature as elements. -/
def valueLength (prekey : String) (payload : List Bytes) : Nat :=
  104 + 16 * ((148 + (Utf8.encode prekey).length + payloadLength payload) / 16)

/-- The same number in any year. -/
def stampedLength (now : Instant) (prekey : String) (payload : List Bytes) : Nat :=
  104 + 16 * ((124 + (Utf8.encode (Rfc3339.writeMillis now)).length + (Utf8.encode prekey).length
    + payloadLength payload) / 16)

theorem stampedLength_eq {now : Instant} (hyear : 0 ≤ now.year) (hyear' : now.year ≤ 9999)
    (prekey : String) (payload : List Bytes) :
    stampedLength now prekey payload = valueLength prekey payload := by
  rw [stampedLength, DataBlock.length_time, Rfc3339.length_writeYear hyear hyear', valueLength]

/-- The elements of a payload together. -/
theorem payloadLength_eq (payload : List Bytes) : payloadLength payload = wireLength payload :=
  length_flatMap_element payload

/-- A nonce and a hash are always as long. -/
theorem wireLength_fields {block : DataBlock} (hnonce : block.nonce.length = 32)
    (hhash : block.dataHash.length = 64) :
    wireLength block.fields = 116 + block.time.length + block.prekey.length + block.data.length := by
  simp only [DataBlock.fields, LengthValue.wireLength_cons, LengthValue.wireLength_nil,
    LengthValue.markLength, hnonce, hhash]
  omega

/-! ## The envelope -/

variable {s : Suite} {now : Instant} {prekey : String} {signing : SigningKey} {key : Bytes}
  {cipherKey : BlockKey} {payload : List Bytes} {e : Entropy}

theorem wireLength_drawnBlock (s : Suite) (now : Instant) (prekey : String) (payload : List Bytes)
    (e : Entropy) :
    wireLength (drawnBlock s now prekey payload e).fields
      = 120 + (Utf8.encode (Rfc3339.writeMillis now)).length + (Utf8.encode prekey).length
        + payloadLength payload := by
  have hdata : (drawnBlock s now prekey payload e).data.length = 4 + payloadLength payload :=
    length_element _
  have hprekey : (drawnBlock s now prekey payload e).prekey = Utf8.encode prekey := rfl
  have htime : (drawnBlock s now prekey payload e).time = Utf8.encode (Rfc3339.writeMillis now) := by
    rw [drawnBlock]
  have hnonce : (drawnBlock s now prekey payload e).nonce.length = 32 := (e.peek 32).property
  have hhash : (drawnBlock s now prekey payload e).dataHash.length = 64 := (s.hash _).property
  rw [wireLength_fields hnonce hhash, hdata, hprekey, htime]
  omega

/-- The number of bytes of what is in the envelope of a data block. -/
def sealedLength (block : DataBlock) : Nat := 104 + 16 * ((4 + wireLength block.fields) / 16)

/-- A data block is sealed as an initial vector, the whole blocks that hold it, and a signature. -/
theorem wireLength_sealedPair (s : Suite) (block : DataBlock) (signing : SigningKey)
    (cipherKey : BlockKey) (iv : Block) :
    wireLength (sealedPair s block signing cipherKey iv) = sealedLength block := by
  have hsignature (ciphertext : Bytes) := (signing.sign s ciphertext).property
  simp only [sealedLength, sealedPair, LengthValue.wireLength_cons, LengthValue.wireLength_nil, hsignature,
    Cipher.length_encryptWith, length_element, length_flatMap_element, LengthValue.markLength]
  omega

/-- What a payload is sealed as is that of its data block. -/
theorem sealedLength_drawnBlock (s : Suite) (now : Instant) (prekey : String)
    (payload : List Bytes) (e : Entropy) :
    sealedLength (drawnBlock s now prekey payload e) = stampedLength now prekey payload := by
  rw [sealedLength, wireLength_drawnBlock, stampedLength]
  omega

/-- What is in the envelope takes as many bytes as it has to. -/
theorem wireLength_drawnPair :
    wireLength (drawnPair s now prekey signing cipherKey payload e)
      = stampedLength now prekey payload :=
  (wireLength_sealedPair s (drawnBlock s now prekey payload e) signing cipherKey
    ((e.advance 32).peek 16)).trans (sealedLength_drawnBlock s now prekey payload e)

/-- No value is longer than all of them together. -/
theorem length_le_of_mem_framed {values : List Bytes} {value : Bytes} (h : value ∈ framed values) :
    value.length ≤ wireLength values := by
  rcases List.mem_append.1 h with hmem | hall
  · exact length_le_wireLength hmem
  · rw [List.mem_singleton.1 hall]
    exact Nat.le_of_eq (length_flatMap_element values)

/-- No value within a sealed data block is longer than what is in the envelope. -/
theorem length_le_of_mem_sealed (block : DataBlock) {iv : Block} {value : Bytes}
    (h : value ∈ framed block.fields ++ framed (sealedPair s block signing cipherKey iv)) :
    value.length ≤ sealedLength block := by
  rcases List.mem_append.1 h with hfields | hpair
  · have hle := length_le_of_mem_framed hfields
    rw [sealedLength]
    omega
  · rw [← wireLength_sealedPair s block signing cipherKey iv]
    exact length_le_of_mem_framed hpair

/-- No value within an envelope is longer than what is in the envelope, so that the last check of
a length is the only one that matters. -/
theorem length_le_of_mem_layers {value : Bytes}
    (h : value ∈ layers s now prekey signing cipherKey payload e) :
    value.length ≤ stampedLength now prekey payload := by
  rw [layers, List.append_assoc] at h
  rcases List.mem_append.1 h with hpayload | hsealed
  · have hle := length_le_of_mem_framed hpayload
    rw [← payloadLength_eq] at hle
    rw [stampedLength]
    omega
  · rw [← sealedLength_drawnBlock s now prekey payload e]
    exact length_le_of_mem_sealed (drawnBlock s now prekey payload e) hsealed

/-- A data block that stays under the ceiling is sealed. -/
theorem exists_sealBlock_of_lt {block : DataBlock} (signing : SigningKey) {cipherKey : BlockKey}
    (hkey : BlockKey.ofBytes? key = some cipherKey) (he : e.has 16 = true)
    (h : sealedLength block < LengthValue.ceiling) :
    ∃ envelope, (sealBlock s block signing key e).1 = .ok envelope := by
  obtain rfl := BlockKey.val_of_ofBytes? hkey
  exact ⟨_, (fst_sealBlock s block signing cipherKey he).trans (unlessTooLarge_of_lt
    (fun value hvalue => Nat.lt_of_le_of_lt (length_le_of_mem_sealed block hvalue) h) _)⟩

/-- An envelope that stays under the ceiling is made, and is as long as it has to be. -/
theorem exists_pack_of_stampedLength_lt (signing : SigningKey) {cipherKey : BlockKey}
    (hkey : BlockKey.ofBytes? key = some cipherKey) (he : e.has 48 = true)
    (h : stampedLength now prekey payload < LengthValue.ceiling) :
    ∃ envelope : Bytes, (pack s now prekey signing key payload e).1 = .ok (Hex.encode envelope)
      ∧ envelope.length = 4 + stampedLength now prekey payload := by
  obtain rfl := BlockKey.val_of_ofBytes? hkey
  refine ⟨element ((drawnPair s now prekey signing cipherKey payload e).flatMap element), ?_, ?_⟩
  · rw [fst_pack s now prekey signing cipherKey payload he]
    exact unlessTooLarge_of_lt (fun value hvalue =>
      Nat.lt_of_le_of_lt (length_le_of_mem_layers hvalue) h) _
  · rw [length_element, length_flatMap_element, wireLength_drawnPair]
    rfl

/-- In the years 0 to 9999 only the prekey and the payload matter to that. -/
theorem exists_pack_of_lt (signing : SigningKey) (hyear : 0 ≤ now.year) (hyear' : now.year ≤ 9999)
    {cipherKey : BlockKey} (hkey : BlockKey.ofBytes? key = some cipherKey) (he : e.has 48 = true)
    (h : valueLength prekey payload < LengthValue.ceiling) :
    ∃ envelope : Bytes, (pack s now prekey signing key payload e).1 = .ok (Hex.encode envelope)
      ∧ envelope.length = 4 + valueLength prekey payload := by
  rw [← stampedLength_eq hyear hyear'] at h ⊢
  exact exists_pack_of_stampedLength_lt signing hkey he h

/-! ## The size law -/

/-- Hexadecimal text is written with digits in lower case. -/
theorem mem_digits_of_mem_encode {bytes : Bytes} {c : Char} (h : c ∈ (Hex.encode bytes).toList) :
    c ∈ "0123456789abcdef".toList := by
  have hdigits : ∀ n < 16, Hex.digit n ∈ "0123456789abcdef".toList := by
    decide
  rw [Hex.encode, String.toList_ofList] at h
  obtain ⟨n, hn, rfl⟩ := Hex.exists_digit_of_mem h
  exact hdigits n hn

/-- How long the envelope of a payload is, and when there is one. In the years 0 to 9999 that
depends on nothing but the length of the prekey and the length of the payload as elements, and on
these only in blocks of sixteen bytes. If what is in the envelope stays under the ceiling, the
envelope is made, and has two digits for each byte; otherwise it is refused for a value that is
too large.

The lengths of all values within the envelope are looked at. None of them is longer than the last
one, so that no check before the last refuses what the last would accept, and none of them is too
long for the mark in front of it. -/
theorem pack_iff_fits (s : Suite) {now : Instant} (hyear : 0 ≤ now.year) (hyear' : now.year ≤ 9999)
    (prekey : String) (signing : SigningKey) (key : BlockKey) (payload : List Bytes) {e : Entropy}
    (he : e.has 48 = true) :
    let blocks := (148 + (Utf8.encode prekey).length + wireLength payload) / 16
    let values := layers s now prekey signing key payload e
    let outcome := (pack s now prekey signing key.val payload e).1
    ((∃ text, outcome = .ok text) ↔ 104 + 16 * blocks < ceiling)
      ∧ (∀ text, outcome = .ok text →
          text.toList.length = 2 * (108 + 16 * blocks)
            ∧ ∀ c ∈ text.toList, c ∈ "0123456789abcdef".toList)
      ∧ (ceiling ≤ 104 + 16 * blocks →
          ∃ length, ceiling ≤ length ∧ outcome = .error (.wire (.tooLarge length)))
      ∧ (∃ text, outcome = unlessTooLarge values (.ok text))
      ∧ (∀ value ∈ values, value.length ≤ 104 + 16 * blocks)
      ∧ ∀ text, outcome = .ok text →
          ∀ value ∈ values,
            ofBigEndian ((element value).take LengthValue.markLength) = value.length := by
  intro blocks values outcome
  have hsize : stampedLength now prekey payload = 104 + 16 * blocks := by
    rw [stampedLength_eq hyear hyear', valueLength, payloadLength_eq]
  have hlayers : ∀ value ∈ values, value.length ≤ 104 + 16 * blocks := fun value hvalue =>
    Nat.le_trans (length_le_of_mem_layers hvalue) (Nat.le_of_eq hsize)
  have houtcome : outcome = unlessTooLarge values (.ok (Hex.encode
      (element ((drawnPair s now prekey signing key payload e).flatMap element)))) :=
    fst_pack s now prekey signing key payload he
  -- What is in the envelope is the last of the values that are looked at.
  have hlast : (drawnPair s now prekey signing key payload e).flatMap element ∈ values :=
    List.mem_append_right _ (List.mem_append_right _ List.mem_cons_self)
  have hlength : ((drawnPair s now prekey signing key payload e).flatMap element).length
      = 104 + 16 * blocks := by
    rw [length_flatMap_element, wireLength_drawnPair, hsize]
  have htoo : ceiling ≤ 104 + 16 * blocks →
      ∃ length, ceiling ≤ length ∧ outcome = .error (.wire (.tooLarge length)) := by
    intro hle
    rw [houtcome]
    exact exists_unlessTooLarge_eq_error hlast (hlength ▸ hle) _
  have hfits : ∀ text, outcome = .ok text → 104 + 16 * blocks < ceiling := by
    intro text htext
    refine Nat.lt_of_not_le fun hle => ?_
    obtain ⟨length, -, herror⟩ := htoo hle
    rw [htext] at herror
    cases herror
  have hmade : 104 + 16 * blocks < ceiling → outcome = .ok (Hex.encode
      (element ((drawnPair s now prekey signing key payload e).flatMap element))) := by
    intro hlt
    rw [houtcome]
    exact unlessTooLarge_of_lt (fun value hvalue => Nat.lt_of_le_of_lt (hlayers value hvalue) hlt) _
  refine ⟨⟨fun ⟨text, htext⟩ => hfits text htext, fun hlt => ⟨_, hmade hlt⟩⟩, ?_, htoo,
    ⟨_, houtcome⟩, hlayers, ?_⟩
  · intro text htext
    obtain rfl := Except.ok.inj ((hmade (hfits text htext)).symm.trans htext)
    refine ⟨?_, fun c hc => mem_digits_of_mem_encode hc⟩
    rw [Hex.encode, String.toList_ofList, Hex.length_flatMap_encodeByte, length_element, hlength,
      LengthValue.markLength]
    omega
  · intro text htext value hvalue
    have hlt := Nat.lt_of_le_of_lt (hlayers value hvalue) (hfits text htext)
    rw [element, List.take_left' (length_bigEndian _ _)]
    exact LengthValue.ofBigEndian_mark hlt

/-- One value is the longest that goes into an envelope for the prekey `p1`, and with one byte more
it is refused. -/
theorem pack_iff_fits_twoGigabytes :
    (∃ text, (pack .twoSigners (.ofUnixNanos 1700000000000000000) "p1" ⟨FixedBytes.ofPrefix 32 []⟩
        (List.replicate 16 7) [List.replicate 2147483397 0] (.ofBytes (List.replicate 48 9))).1
          = .ok text ∧ text.toList.length = 4294967288)
      ∧ ∃ length, (pack .twoSigners (.ofUnixNanos 1700000000000000000) "p1"
        ⟨FixedBytes.ofPrefix 32 []⟩ (List.replicate 16 7) [List.replicate 2147483398 0]
          (.ofBytes (List.replicate 48 9))).1 = .error (.wire (.tooLarge length)) := by
  have hyear : 0 ≤ (Instant.ofUnixNanos 1700000000000000000).year := by decide +kernel
  have hyear' : (Instant.ofUnixNanos 1700000000000000000).year ≤ 9999 := by decide +kernel
  have hprekey : (Utf8.encode "p1").length = 2 := by decide +kernel
  have hlaw (n : Nat) := pack_iff_fits .twoSigners hyear hyear' "p1" ⟨FixedBytes.ofPrefix 32 []⟩
    ⟨List.replicate 16 7, .inl rfl⟩ [List.replicate n 0] (e := .ofBytes (List.replicate 48 9)) rfl
  simp only [hprekey, LengthValue.wireLength_cons, LengthValue.wireLength_nil, List.length_replicate,
    LengthValue.markLength, LengthValue.ceiling] at hlaw
  obtain ⟨text, htext⟩ := (hlaw 2147483397).1.2 (by decide)
  obtain ⟨length, -, herror⟩ := (hlaw 2147483398).2.2.1 (by decide)
  exact ⟨⟨text, htext, ((hlaw 2147483397).2.1 text htext).1⟩, length, herror⟩

end Envelope

end SealedEnvelope
