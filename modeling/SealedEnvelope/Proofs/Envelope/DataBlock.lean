import SealedEnvelope.Envelope.DataBlock
import SealedEnvelope.Proofs.Outcome
import SealedEnvelope.Proofs.Wire.Framing

/-!
# `SealedEnvelope.Proofs.Envelope.DataBlock`: data blocks as byte strings

`DataBlock.Holds` says without a reader that a byte string holds a data block: it begins
with one element, whose value is the five fields and any further elements. `Carries` says
the same of the data of a block and its payload.

Main statements:

* `DataBlock.decode_eq_ok_iff`: the block that a byte string holds is what the reader finds;
* `DataBlock.Holds.of_encode`: the encoding of a block holds it;
* `DataBlock.encode_decode_inverse`: which blocks are written, what is read from which byte
  strings, and which byte strings are refused for having too few fields;
* `DataBlock.Carries.unique`: data carry one payload at most.
-/

set_option autoImplicit false

namespace SealedEnvelope

namespace DataBlock

open LengthValue (Begins element encodeAll encodeAll_eq_ok_iff readAll_eq_ok_iff)
open EnvelopeError (onWire onWire_eq_ok_iff)

/-! ## Blocks that are made -/

/-- A block has another nonce where random bytes are there, and is what it was where none are. -/
theorem drawNonce_apply (block : DataBlock) (e : Entropy) :
    drawNonce block e
      = if e.has 32 = true then ((.ok (), { block with nonce := (e.peek 32).val }), e.advance 32)
        else ((.error .random, block), e) := by
  rw [drawNonce, Updating.bind_apply, Updating.lift_apply]
  by_cases he : e.has 32 = true
  · rw [Drawing.bytes_of_has he, if_pos he]
    rfl
  · rw [Drawing.bytes_of_not_has he, if_neg he]

/-- A block is created from the bytes that are drawn for its nonce. -/
theorem create_eq (s : Suite) (now : Instant) (data : Bytes) :
    create s now data
      = (do
        let nonce ← Drawing.bytes .random 32
        return { time := Utf8.encode (Rfc3339.writeMillis now), nonce := nonce.val, data := data,
                 dataHash := (s.hash data).val }) := by
  funext e
  rw [create, Updating.execute_apply, Updating.bind_apply, Updating.modify_apply]
  simp only [Updating.bind_apply, drawNonce_apply, Drawing.bind_apply]
  by_cases he : e.has 32 = true
  · simp only [if_pos he, Drawing.bytes_of_has he, Updating.modify_apply, setTime, setData, Except.map]
    rfl
  · simp only [if_neg he, Drawing.bytes_of_not_has he, Except.map]

/-! ## Blocks as byte strings -/

/-- Whether a byte string begins with an element whose value is the fields of a block and
any further elements. -/
def Holds (message : Bytes) (block : DataBlock) : Prop :=
  ∃ (value : Bytes) (extra : List Bytes),
    Begins message value ∧ encodeAll (block.fields ++ extra) = .ok value

/-- Whether a byte string begins with an element whose value is so many elements, one after
another, and these are too few for the fields of a block. -/
def FallsShort (message : Bytes) (count : Nat) : Prop :=
  ∃ (value : Bytes) (values : List Bytes),
    Begins message value ∧ encodeAll values = .ok value ∧ values.length = count ∧ count < 5

/-- Whether the data of a block begin with an element whose value is the payload, as
elements one after another. -/
def Carries (data : Bytes) (payload : List Bytes) : Prop :=
  ∃ value : Bytes, Begins data value ∧ encodeAll payload = .ok value

/-- What is read depends on the value of the first element only. -/
theorem decode_of_begins {message value : Bytes} (h : Begins message value) :
    decode message = (do
      let fields ← onWire (LengthValue.readAll value)
      match fields with
      | time :: nonce :: prekey :: data :: dataHash :: _ =>
        return { time := time, nonce := nonce, prekey := prekey, data := data,
                 dataHash := dataHash }
      | fewer => throw (.malformedDataBlock fewer.length)) := by
  unfold decode
  rw [onWire_eq_ok_iff.2 (LengthValue.decode_eq_ok_iff.2 h)]
  rfl

/-- The reader finds the block that a byte string holds. -/
theorem decode_eq_ok_iff {message : Bytes} {block : DataBlock} :
    decode message = .ok block ↔ Holds message block := by
  constructor
  · intro h
    obtain ⟨value, hvalue, h⟩ := exists_of_bind_eq_ok h
    obtain ⟨fields, hfields, h⟩ := exists_of_bind_eq_ok h
    have hbegins := LengthValue.decode_eq_ok_iff.1 (onWire_eq_ok_iff.1 hvalue)
    have hall := readAll_eq_ok_iff.1 (onWire_eq_ok_iff.1 hfields)
    -- Five fields or more are one case of the reader, and each smaller number is an error.
    split at h
    · next time nonce prekey data dataHash extra =>
      cases h
      exact ⟨value, extra, hbegins, hall⟩
    · cases h
  · rintro ⟨value, extra, hbegins, hall⟩
    rw [decode_of_begins hbegins, onWire_eq_ok_iff.2 (readAll_eq_ok_iff.2 hall)]
    rfl

/-- A byte string holds one block at most. -/
theorem Holds.unique {message : Bytes} {block block' : DataBlock} (h : Holds message block)
    (h' : Holds message block') : block = block' := by
  have hok := decode_eq_ok_iff.2 h
  rw [decode_eq_ok_iff.2 h', Except.ok.injEq] at hok
  exact hok.symm

/-- The encoding of a block holds it. -/
theorem Holds.of_encode {block : DataBlock} {message : Bytes} (h : block.encode = .ok message) :
    Holds message block := by
  obtain ⟨value, hvalue, h⟩ := exists_of_bind_eq_ok h
  refine ⟨value, [], Begins.of_encode (onWire_eq_ok_iff.1 h), ?_⟩
  rw [List.append_nil]
  exact onWire_eq_ok_iff.1 hvalue

/-! ## Which blocks are written, and which byte strings are read -/

/-- A block is written exactly if each of its fields and all of them together are below the
ceiling, as the element of the five elements. -/
theorem encode_eq_ok_iff {block : DataBlock} {message : Bytes} :
    block.encode = .ok message
      ↔ (∀ field ∈ block.fields, field.length < LengthValue.ceiling)
          ∧ (block.fields.flatMap element).length < LengthValue.ceiling
          ∧ message = element (block.fields.flatMap element) := by
  constructor
  · intro h
    obtain ⟨value, hvalue, h⟩ := exists_of_bind_eq_ok h
    obtain ⟨hfields, rfl⟩ := encodeAll_eq_ok_iff.1 (onWire_eq_ok_iff.1 hvalue)
    obtain ⟨hlt, hmessage⟩ := LengthValue.encode_eq_ok_iff.1 (onWire_eq_ok_iff.1 h)
    exact ⟨hfields, hlt, hmessage⟩
  · rintro ⟨hfields, hlt, rfl⟩
    unfold encode value
    rw [onWire_eq_ok_iff.2 (encodeAll_eq_ok_iff.2 ⟨hfields, rfl⟩)]
    exact onWire_eq_ok_iff.2 (LengthValue.encode_of_lt hlt)

/-- What is written is read back whatever follows it. -/
theorem decode_encode_append {block : DataBlock} {message : Bytes} (h : block.encode = .ok message)
    (tail : Bytes) : decode (message ++ tail) = .ok block := by
  obtain ⟨hfields, hlt, rfl⟩ := encode_eq_ok_iff.1 h
  refine decode_eq_ok_iff.2 ⟨_, [], LengthValue.begins_element hlt tail, ?_⟩
  rw [List.append_nil]
  exact encodeAll_eq_ok_iff.2 ⟨hfields, rfl⟩

/-- Five values or more are the fields of a block and further ones. -/
theorem exists_fields_append {values : List Bytes} (h : 5 ≤ values.length) :
    ∃ (block : DataBlock) (extra : List Bytes), values = block.fields ++ extra := by
  match values, h with
  | time :: nonce :: prekey :: data :: dataHash :: extra, _ =>
    exact ⟨⟨time, nonce, prekey, data, dataHash⟩, extra, rfl⟩

/-- Too few fields are counted. -/
theorem decode_of_fallsShort {message : Bytes} {count : Nat} (h : FallsShort message count) :
    decode message = .error (.malformedDataBlock count) := by
  obtain ⟨value, values, hbegins, hall, rfl, hlt⟩ := h
  rw [decode_of_begins hbegins, onWire_eq_ok_iff.2 (readAll_eq_ok_iff.2 hall)]
  match values, hlt with
  | [], _ | [_], _ | [_, _], _ | [_, _, _], _ | [_, _, _, _], _ => rfl

/-- Fields are counted only where there are too few. -/
theorem decode_eq_malformed_iff {message : Bytes} {count : Nat} :
    decode message = .error (.malformedDataBlock count) ↔ FallsShort message count := by
  refine ⟨fun h => ?_, decode_of_fallsShort⟩
  -- Bytes that begin with no element, and a value that is no list of them, are other errors.
  cases hvalue : LengthValue.decode message with
  | error fault =>
    rw [decode, hvalue] at h
    cases h
  | ok value =>
    have hbegins := LengthValue.decode_eq_ok_iff.1 hvalue
    cases hvalues : LengthValue.readAll value with
    | error fault =>
      rw [decode_of_begins hbegins, hvalues] at h
      cases h
    | ok values =>
      have hall := readAll_eq_ok_iff.1 hvalues
      cases Nat.lt_or_ge values.length 5 with
      | inl hlt =>
        have hshort : FallsShort message values.length := ⟨value, values, hbegins, hall, rfl, hlt⟩
        rw [decode_of_fallsShort hshort, Except.error.injEq,
          EnvelopeError.malformedDataBlock.injEq] at h
        rwa [h] at hshort
      | inr hle =>
        obtain ⟨block, extra, rfl⟩ := exists_fields_append hle
        rw [decode_eq_ok_iff.2 ⟨value, extra, hbegins, hall⟩] at h
        cases h

/-- Data blocks and byte strings. A block is written exactly if its fields and all of them
together are below the ceiling. What is written is read back, whatever follows it. A block is
read exactly from the byte strings that begin with the element of its five fields and any
further ones, and a number of fields is complained of exactly where that many stand, and they
are fewer than five. No two blocks are written alike. -/
theorem encode_decode_inverse :
    (∀ block : DataBlock, (∃ message, block.encode = .ok message)
        ↔ (∀ field ∈ block.fields, field.length < LengthValue.ceiling)
            ∧ (block.fields.flatMap element).length < LengthValue.ceiling)
      ∧ (∀ (block : DataBlock) (message tail : Bytes), block.encode = .ok message →
          decode (message ++ tail) = .ok block)
      ∧ (∀ (message : Bytes) (block : DataBlock),
          decode message = .ok block ↔ Holds message block)
      ∧ (∀ (message : Bytes) (count : Nat),
          decode message = .error (.malformedDataBlock count) ↔ FallsShort message count)
      ∧ (∀ (block block' : DataBlock) (message : Bytes),
          block.encode = .ok message → block'.encode = .ok message → block = block') := by
  refine ⟨fun block => ?_, fun block message tail h => decode_encode_append h tail,
    fun message block => decode_eq_ok_iff, fun message count => decode_eq_malformed_iff,
    fun block block' message h h' => ?_⟩
  · constructor
    · rintro ⟨message, h⟩
      obtain ⟨hfields, hlt, -⟩ := encode_eq_ok_iff.1 h
      exact ⟨hfields, hlt⟩
    · rintro ⟨hfields, hlt⟩
      exact ⟨_, encode_eq_ok_iff.2 ⟨hfields, hlt, rfl⟩⟩
  · exact (Holds.of_encode h).unique (Holds.of_encode h')

/-- A block whose data look like an element and whose other fields but the prekey are empty,
and what is left of it if the last two fields are cut off. -/
theorem encode_decode_inverse_nested :
    (let block : DataBlock := { prekey := [7], data := [0, 0, 0, 1, 9] }
     let message : Bytes :=
       [0, 0, 0, 26, 0, 0, 0, 0, 0, 0, 0, 0, 0, 0, 0, 1, 7, 0, 0, 0, 5, 0, 0, 0, 1, 9, 0, 0, 0, 0]
     block.encode = .ok message ∧ decode (message ++ [1, 2, 3]) = .ok block)
      ∧ decode [0, 0, 0, 13, 0, 0, 0, 0, 0, 0, 0, 0, 0, 0, 0, 1, 7]
          = .error (.malformedDataBlock 3) := by
  have hwrite : ({ prekey := [7], data := [0, 0, 0, 1, 9] } : DataBlock).encode
      = .ok [0, 0, 0, 26, 0, 0, 0, 0, 0, 0, 0, 0, 0, 0, 0, 1, 7, 0, 0, 0, 5, 0, 0, 0, 1, 9,
          0, 0, 0, 0] := by
    rfl
  have hvalues : encodeAll [[], [], [7]] = .ok [0, 0, 0, 0, 0, 0, 0, 0, 0, 0, 0, 1, 7] := by
    rfl
  refine ⟨⟨hwrite, encode_decode_inverse.2.1 _ _ _ hwrite⟩,
    (encode_decode_inverse.2.2.2.1 _ 3).2 ⟨_, _, Begins.of_encode ?_, hvalues, rfl, by decide⟩⟩
  rfl

/-- Data carry one payload at most. -/
theorem Carries.unique {data : Bytes} {payload payload' : List Bytes} (h : Carries data payload)
    (h' : Carries data payload') : payload = payload' := by
  obtain ⟨value, hbegins, hall⟩ := h
  obtain ⟨value', hbegins', hall'⟩ := h'
  obtain rfl := hbegins.unique hbegins'
  exact LengthValue.encodeAll_inj hall hall'

end DataBlock

end SealedEnvelope
