import SealedEnvelope.Envelope.Seal
import SealedEnvelope.Proofs.Crypto.Standard
import SealedEnvelope.Proofs.Envelope.Cipher
import SealedEnvelope.Proofs.Envelope.DataBlock
import SealedEnvelope.Proofs.Text.Spelling

/-!
# `SealedEnvelope.Proofs.Envelope.Format`: which texts are envelopes

The format of an envelope is said without a reader, layer by layer: `Spells` takes a text
to the value of its element, `Encloses` to a ciphertext and a signature, `Opening.Delivers`
to the decrypted message, `DataBlock.Holds` to the data block, and `Opening.Admits` to the
payload.

Main statements:

* `Opening.ciphertext_eq_ok_iff` and `Opening.payload_eq_ok_iff`: what the two halves of
  opening accept;
* `Opening.unpack_accepts_format`: a text is opened exactly if it has the format, and what the
  format leaves open changes no outcome, errors included.
-/

set_option autoImplicit false

namespace SealedEnvelope.Envelope

open LengthValue (Begins element encodeAll decode_eq_ok_iff readAll_eq_ok_iff)
open EnvelopeError (onWire onWire_eq_ok_iff)

/-! ## The format -/

/-- Whether a text spells bytes that begin with the element of a value. -/
def Spells (text : String) (value : Bytes) : Prop :=
  ∃ bytes : Bytes, Text.Respells text (Hex.encode bytes) ∧ Begins bytes value

/-- Whether the value that a text spells is a ciphertext and a signature, as elements one
after another, and any further elements. -/
def Encloses (text : String) (ciphertext signature : Bytes) : Prop :=
  ∃ (value : Bytes) (extra : List Bytes),
    Spells text value ∧ encodeAll (ciphertext :: signature :: extra) = .ok value

/-- The text of an element whose value is some elements one after another, and of bytes after
it. -/
def textOf (elements : List Bytes) (rest : Bytes) : String :=
  Hex.encode (element (elements.flatMap element) ++ rest)

theorem spells_textOf {elements : List Bytes} (rest : Bytes)
    (h : (elements.flatMap element).length < LengthValue.ceiling) :
    Spells (textOf elements rest) (elements.flatMap element) :=
  ⟨_, Text.Respells.refl _, LengthValue.begins_element h rest⟩

theorem encloses_textOf {ciphertext signature : Bytes} {extra : List Bytes} (rest : Bytes)
    (hall : ∀ value ∈ ciphertext :: signature :: extra, value.length < LengthValue.ceiling)
    (h : ((ciphertext :: signature :: extra).flatMap element).length < LengthValue.ceiling) :
    Encloses (textOf (ciphertext :: signature :: extra) rest) ciphertext signature :=
  ⟨_, extra, spells_textOf rest h, LengthValue.encodeAll_eq_ok_iff.2 ⟨hall, rfl⟩⟩

namespace Opening

/-- Whether a signature of a ciphertext is trusted: it is one under the key of the peer,
unless signatures are left unchecked. -/
def Trusts (s : Suite) (o : Opening) (ciphertext signature : Bytes) : Prop :=
  o.skipVerify = true
    ∨ ∃ checked : FixedBytes 64,
        checked.val = signature ∧ s.verify o.peer.bytes ciphertext checked = true

/-- Whether a text encloses a trusted ciphertext of a message. -/
def Delivers (s : Suite) (o : Opening) (text : String) (message : Bytes) : Prop :=
  ∃ ciphertext signature : Bytes, Encloses text ciphertext signature
    ∧ o.Trusts s ciphertext signature ∧ Cipher.decrypt s o.key ciphertext = .ok message

/-- Whether a data block is for this opening and carries a payload. -/
structure Admits (s : Suite) (o : Opening) (block : DataBlock) (payload : List Bytes) : Prop where
  /-- The time can be read, and it is not too long ago. -/
  inTime : ∃ stamped : Instant, DataBlock.readTime? block.time = some stamped
    ∧ o.now.since stamped ≤ lifetime * nanosPerSecond
  /-- The block is for the prekey. -/
  forPrekey : block.prekey = Utf8.encode o.prekey
  /-- The hash is that of the data. -/
  hashed : block.dataHash = (s.hash block.data).val
  /-- The data are the payload. -/
  carries : DataBlock.Carries block.data payload

/-! ## The ciphertext -/

theorem trusts_iff {s : Suite} {o : Opening} {ciphertext signature : Bytes} :
    (o.skipVerify || o.peer.verifies s ciphertext signature) = true
      ↔ o.Trusts s ciphertext signature := by
  rw [Bool.or_eq_true, Trusts, VerifyingKey.verifies]
  refine or_congr Iff.rfl ?_
  -- A signature of another length than 64 is refused unchecked, and none is trusted.
  split
  · next hlen =>
    constructor
    · intro h
      cases h
    · rintro ⟨checked, rfl, -⟩
      rw [FixedBytes.ofBytes?_val] at hlen
      cases hlen
  · next checked hlen =>
    have hval := FixedBytes.ofBytes?_eq_some_iff.1 hlen
    refine ⟨fun h => ⟨checked, hval, h⟩, ?_⟩
    rintro ⟨checked', hval', hverify⟩
    rwa [Subtype.ext (hval.trans hval'.symm)]

/-- What is found in a text depends on the value that it spells only. -/
theorem ciphertext_of_spells {s : Suite} {o : Opening} {text : String} {value : Bytes}
    (h : Spells text value) : o.ciphertext s text = (do
      let elements ← onWire (LengthValue.readAll value)
      match elements with
      | ciphertext :: signature :: _ =>
        if o.skipVerify || o.peer.verifies s ciphertext signature then return ciphertext
        else throw .invalidSignature
      | _ => throw .invalidData) := by
  obtain ⟨bytes, hspelling, hbegins⟩ := h
  rw [ciphertext, readHex_eq_ok_iff.2 hspelling]
  show (onWire (LengthValue.decode bytes)).bind _ = _
  rw [onWire_eq_ok_iff.2 (decode_eq_ok_iff.2 hbegins)]
  rfl

/-- What is found in a text depends on the first two elements only. -/
theorem ciphertext_of_encloses {s : Suite} {o : Opening} {text : String}
    {ciphertext signature : Bytes} (h : Encloses text ciphertext signature) :
    o.ciphertext s text
      = if o.skipVerify || o.peer.verifies s ciphertext signature then .ok ciphertext
        else .error .invalidSignature := by
  obtain ⟨value, extra, hspells, hall⟩ := h
  rw [ciphertext_of_spells hspells, onWire_eq_ok_iff.2 (readAll_eq_ok_iff.2 hall)]
  rfl

/-- The ciphertext that is found is one that the text encloses with a trusted signature. -/
theorem ciphertext_eq_ok_iff {s : Suite} {o : Opening} {text : String} {ciphertext : Bytes} :
    o.ciphertext s text = .ok ciphertext
      ↔ ∃ signature, Encloses text ciphertext signature ∧ o.Trusts s ciphertext signature := by
  constructor
  · intro h
    obtain ⟨bytes, hbytes, h⟩ := exists_of_bind_eq_ok h
    obtain ⟨value, hvalue, h⟩ := exists_of_bind_eq_ok h
    obtain ⟨elements, helements, h⟩ := exists_of_bind_eq_ok h
    have hspells : Spells text value :=
      ⟨bytes, readHex_eq_ok_iff.1 hbytes, decode_eq_ok_iff.1 (onWire_eq_ok_iff.1 hvalue)⟩
    have hall := readAll_eq_ok_iff.1 (onWire_eq_ok_iff.1 helements)
    -- At least two elements are asked for, and then a signature that verifies.
    split at h
    · next first signature extra =>
      split at h
      · next htrusted =>
        cases h
        exact ⟨signature, ⟨value, extra, hspells, hall⟩, trusts_iff.1 htrusted⟩
      · cases h
    · cases h
  · rintro ⟨signature, hencloses, htrusts⟩
    rw [ciphertext_of_encloses hencloses, if_pos (trusts_iff.2 htrusts)]

/-! ## The payload -/

/-- The payload of a block whose time can be read. -/
theorem payload_of_timestamp {s : Suite} {o : Opening} {block : DataBlock} {stamped : Instant}
    (h : block.timestamp = .ok stamped) :
    o.payload s block
      = if lifetime * nanosPerSecond < o.now.since stamped then
          .error (.timeExpired ((o.now.since stamped).tdiv nanosPerSecond))
        else if block.prekey ≠ Utf8.encode o.prekey then .error .invalidPrekey
        else if ¬ block.hashMatches s then .error .invalidDataHash
        else (onWire (LengthValue.decode block.data)).bind fun combined =>
          onWire (LengthValue.readAll combined) := by
  simp only [payload, h, bind, Except.bind, throw, throwThe, MonadExceptOf.throw]

/-- The data of a block carry the payload that is read from them. -/
theorem carries_iff {data : Bytes} {payload : List Bytes} :
    (onWire (LengthValue.decode data)).bind (fun combined => onWire (LengthValue.readAll combined))
        = .ok payload
      ↔ DataBlock.Carries data payload := by
  constructor
  · intro h
    obtain ⟨value, hvalue, h⟩ := exists_of_bind_eq_ok h
    exact ⟨value, decode_eq_ok_iff.1 (onWire_eq_ok_iff.1 hvalue),
      readAll_eq_ok_iff.1 (onWire_eq_ok_iff.1 h)⟩
  · rintro ⟨value, hbegins, hall⟩
    rw [onWire_eq_ok_iff.2 (decode_eq_ok_iff.2 hbegins)]
    exact onWire_eq_ok_iff.2 (readAll_eq_ok_iff.2 hall)

/-- A block gives a payload exactly if it is for this opening and carries the payload. -/
theorem payload_eq_ok_iff {s : Suite} {o : Opening} {block : DataBlock} {payload : List Bytes} :
    o.payload s block = .ok payload ↔ o.Admits s block payload := by
  -- The time is read first, and nothing else is looked at if it cannot be read.
  cases htime : DataBlock.readTime? block.time with
  | none =>
    have hstamp : block.timestamp = .error .invalidTimestamp := by
      rw [DataBlock.timestamp, htime]
    rw [Opening.payload, hstamp]
    constructor
    · intro h
      cases h
    · rintro ⟨⟨stamped, hread, -⟩, -, -, -⟩
      rw [htime] at hread
      cases hread
  | some stamped =>
    have hstamp : block.timestamp = .ok stamped := by
      rw [DataBlock.timestamp, htime]
    have hhash : block.hashMatches s = true ↔ block.dataHash = (s.hash block.data).val := by
      rw [DataBlock.hashMatches, beq_iff_eq, eq_comm]
    rw [payload_of_timestamp hstamp]
    constructor
    · intro h
      split at h
      · cases h
      · next hage =>
        split at h
        · cases h
        · next hprekey =>
          split at h
          · cases h
          · next hmatches =>
            exact ⟨⟨stamped, htime, Int.not_lt.1 hage⟩, Decidable.not_not.1 hprekey,
              hhash.1 (Decidable.not_not.1 hmatches), carries_iff.1 h⟩
    · rintro ⟨⟨stamped', hread, hage⟩, hprekey, hhashed, hcarries⟩
      rw [htime, Option.some.injEq] at hread
      subst hread
      rw [if_neg (Int.not_lt.2 hage), if_neg (fun h => h hprekey),
        if_neg (fun h => h (hhash.2 hhashed))]
      exact carries_iff.2 hcarries

/-! ## Whole envelopes -/

/-- The outcome of opening depends on the delivered message only. -/
theorem unpack_of_delivers {s : Suite} {o : Opening} {text : String} {message : Bytes}
    (h : o.Delivers s text message) :
    o.unpack s text = (DataBlock.decode message).bind (o.payload s) := by
  obtain ⟨ciphertext, signature, hencloses, htrusts, hdecrypt⟩ := h
  rw [unpack, ciphertext_eq_ok_iff.2 ⟨signature, hencloses, htrusts⟩]
  show (Cipher.decrypt s o.key ciphertext).bind _ = _
  rw [hdecrypt]
  rfl

/-- A text is opened exactly if it delivers a message that holds a data block for this
opening. -/
theorem unpack_eq_ok_iff {s : Suite} {o : Opening} {text : String} {payload : List Bytes} :
    o.unpack s text = .ok payload
      ↔ ∃ message block, o.Delivers s text message ∧ DataBlock.Holds message block
          ∧ o.Admits s block payload := by
  constructor
  · intro h
    obtain ⟨ciphertext, hciphertext, h⟩ := exists_of_bind_eq_ok h
    obtain ⟨message, hmessage, h⟩ := exists_of_bind_eq_ok h
    obtain ⟨block, hblock, h⟩ := exists_of_bind_eq_ok h
    obtain ⟨signature, hencloses, htrusts⟩ := ciphertext_eq_ok_iff.1 hciphertext
    exact ⟨message, block, ⟨ciphertext, signature, hencloses, htrusts, hmessage⟩,
      DataBlock.decode_eq_ok_iff.1 hblock, payload_eq_ok_iff.1 h⟩
  · rintro ⟨message, block, hdelivers, hholds, hadmits⟩
    rw [unpack_of_delivers hdelivers, DataBlock.decode_eq_ok_iff.2 hholds]
    exact payload_eq_ok_iff.2 hadmits

/-- A text is opened exactly if it has the format of an envelope. What the format leaves
open changes no outcome, errors included: bytes after the element of the envelope, elements
after the signature, bytes after the element of the data block, and fields after the
fifth. -/
theorem unpack_accepts_format (s : Suite) (o : Opening) :
    (∀ (text : String) (payload : List Bytes), o.unpack s text = .ok payload
      ↔ ∃ message block, o.Delivers s text message ∧ DataBlock.Holds message block
          ∧ o.Admits s block payload)
    ∧ (∀ (text text' : String) (value : Bytes), Spells text value → Spells text' value →
        o.unpack s text = o.unpack s text')
    ∧ (∀ (text text' : String) (ciphertext signature : Bytes),
        Encloses text ciphertext signature → Encloses text' ciphertext signature →
        o.unpack s text = o.unpack s text')
    ∧ (∀ (text text' : String) (message message' value : Bytes),
        o.Delivers s text message → o.Delivers s text' message' →
        Begins message value → Begins message' value → o.unpack s text = o.unpack s text')
    ∧ (∀ (text text' : String) (message message' : Bytes) (block : DataBlock),
        o.Delivers s text message → o.Delivers s text' message' →
        DataBlock.Holds message block → DataBlock.Holds message' block →
        o.unpack s text = o.unpack s text') := by
  -- Each of the four goes through the layer at which the two texts have become the same.
  refine ⟨fun text payload => unpack_eq_ok_iff, ?_, ?_, ?_, ?_⟩
  · intro text text' value h h'
    rw [unpack, unpack, ciphertext_of_spells h, ciphertext_of_spells h']
  · intro text text' ciphertext signature h h'
    rw [unpack, unpack, ciphertext_of_encloses h, ciphertext_of_encloses h']
  · intro text text' message message' value h h' hbegins hbegins'
    rw [unpack_of_delivers h, unpack_of_delivers h', DataBlock.decode_of_begins hbegins,
      DataBlock.decode_of_begins hbegins']
  · intro text text' message message' block h h' hholds hholds'
    rw [unpack_of_delivers h, unpack_of_delivers h', DataBlock.decode_eq_ok_iff.2 hholds,
      DataBlock.decode_eq_ok_iff.2 hholds']

/-- The ciphertext of a data block of empty fields, with further fields in its element and
bytes after it. -/
def blankCiphertext (extra : List Bytes) (rest : Bytes) : Bytes :=
  Cipher.encryptWith .standard ⟨List.replicate 16 0, .inl rfl⟩ (FixedBytes.ofPrefix 16 [])
    (element ((DataBlock.fields {} ++ extra).flatMap element) ++ rest)

/-- An opening that checks no signature. -/
def unchecked : Opening where
  prekey := ""
  peer := ⟨FixedBytes.ofPrefix 32 []⟩
  key := List.replicate 16 0
  now := .ofUnixNanos 0
  skipVerify := true

theorem length_blankCiphertext (extra : List Bytes) (rest : Bytes) :
    (blankCiphertext extra rest).length = 16 + 16 * ((element
      ((DataBlock.fields {} ++ extra).flatMap element) ++ rest).length / 16 + 1) :=
  Cipher.length_encryptWith ..

/-- Such a ciphertext is enclosed where it stands before an empty signature, and its message
is delivered. -/
theorem encloses_blankCiphertext {extra : List Bytes} {rest : Bytes}
    (h : (blankCiphertext extra rest).length < 1000) (after : Bytes) :
    Encloses (textOf [blankCiphertext extra rest, []] after) (blankCiphertext extra rest) [] := by
  refine encloses_textOf after ?_ ?_
  · simp only [List.forall_mem_cons, LengthValue.ceiling, List.length_nil, List.not_mem_nil,
      false_imp_iff, implies_true, and_true]
    omega
  · simp only [List.flatMap_cons, List.flatMap_nil, List.length_append, LengthValue.length_element,
      LengthValue.markLength, LengthValue.ceiling, List.length_nil]
    omega

theorem unchecked_delivers {extra : List Bytes} {rest : Bytes}
    (h : (blankCiphertext extra rest).length < 1000) :
    unchecked.Delivers .standard (textOf [blankCiphertext extra rest, []] [])
      (element ((DataBlock.fields {} ++ extra).flatMap element) ++ rest) :=
  ⟨_, [], encloses_blankCiphertext h [], .inl rfl,
    Cipher.decrypt_encryptWith Suite.standard_deciphers _ _ _⟩

/-- An envelope around empty fields, with something more in each of the four places. -/
theorem unpack_accepts_format_blank :
    unchecked.unpack .standard (textOf [blankCiphertext [] [], []] [])
        = unchecked.unpack .standard (textOf [blankCiphertext [] [], []] [1])
      ∧ unchecked.unpack .standard (textOf [blankCiphertext [] [], []] [])
        = unchecked.unpack .standard (textOf [blankCiphertext [] [], [], [2]] [])
      ∧ unchecked.unpack .standard (textOf [blankCiphertext [] [], []] [])
        = unchecked.unpack .standard (textOf [blankCiphertext [] [3], []] [])
      ∧ unchecked.unpack .standard (textOf [blankCiphertext [] [], []] [])
        = unchecked.unpack .standard (textOf [blankCiphertext [[4]] [], []] []) := by
  -- Only lengths are computed: what the ciphertexts are does not matter.
  have hplain : (blankCiphertext [] []).length = 48 := by
    rw [length_blankCiphertext]
    decide
  have hrest : (blankCiphertext [] [3]).length = 48 := by
    rw [length_blankCiphertext]
    decide
  have hextra : (blankCiphertext [[4]] []).length = 48 := by
    rw [length_blankCiphertext]
    decide
  obtain ⟨-, hspells, hencloses, hbegins, hholds⟩ := unpack_accepts_format .standard unchecked
  have hdelivers : unchecked.Delivers .standard (textOf [blankCiphertext [] [], []] []) _ :=
    unchecked_delivers (by omega)
  refine ⟨?_, ?_, ?_, ?_⟩
  · have hlt : ([blankCiphertext [] [], []].flatMap element).length < LengthValue.ceiling := by
      simp [hplain, LengthValue.markLength, LengthValue.ceiling]
    exact hspells _ _ _ (spells_textOf [] hlt) (spells_textOf [1] hlt)
  · refine hencloses _ _ _ _ (encloses_blankCiphertext (by omega) []) (encloses_textOf [] ?_ ?_)
    · simp [hplain, LengthValue.ceiling]
    · simp [hplain, LengthValue.markLength, LengthValue.ceiling]
  · refine hbegins _ _ _ _ _ hdelivers (unchecked_delivers (by omega))
      (LengthValue.begins_element ?_ []) (LengthValue.begins_element ?_ [3])
    · decide
    · decide
  · refine hholds _ _ _ _ {} hdelivers (unchecked_delivers (by omega))
      ⟨_, [], LengthValue.begins_element ?_ [], LengthValue.encodeAll_eq_ok_iff.2 ⟨?_, rfl⟩⟩
      ⟨_, [[4]], LengthValue.begins_element ?_ [], LengthValue.encodeAll_eq_ok_iff.2 ⟨?_, rfl⟩⟩
    · decide
    · decide
    · decide
    · decide

end Opening

end SealedEnvelope.Envelope
