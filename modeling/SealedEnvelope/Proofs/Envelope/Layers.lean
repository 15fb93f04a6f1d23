import SealedEnvelope.Proofs.Envelope.Sealing

/-!
# `SealedEnvelope.Proofs.Envelope.Layers`: the values within an envelope

An envelope is made from the inside to the outside, and three times in the same way: some values
are written as elements one after another, and these as one element (`frame`). The first values are
the payload, the next the fields of the data block, and the last the ciphertext and its signature.

The length of each value is looked at before it is written. Where random bytes are there for the
nonce and the initial vector, nothing else can go wrong, and what is told is the length of the
first value that is too large.

Main statements:

* `pack_eq_frames`: the envelope is framed three times;
* `fst_sealBlock`: the outcome of sealing a data block, from the values that are within it;
* `fst_pack`: the same for the envelope of a payload.
-/

set_option autoImplicit false

namespace SealedEnvelope.Envelope

open LengthValue (ceiling element encode encodeAll encodeAll_eq_ok_iff encodeAll_cons)
open EnvelopeError (onWire)

/-! ## Values that are too large -/

section
variable {α β : Type}

/-- A result, unless one of some values is too large to be written: then the length of the first
such value is told. -/
def unlessTooLarge (values : List Bytes) (result : Except EnvelopeError α) :
    Except EnvelopeError α :=
  match values.find? fun value => ceiling ≤ value.length with
  | none => result
  | some value => .error (.wire (.tooLarge value.length))

@[simp] theorem unlessTooLarge_nil (result : Except EnvelopeError α) :
    unlessTooLarge [] result = result := rfl

theorem unlessTooLarge_of_lt {values : List Bytes} (h : ∀ value ∈ values, value.length < ceiling)
    (result : Except EnvelopeError α) : unlessTooLarge values result = result := by
  have hnone : (values.find? fun value => ceiling ≤ value.length) = none := by
    refine List.find?_eq_none.2 fun value hvalue => ?_
    simp [h value hvalue]
  rw [unlessTooLarge, hnone]

theorem exists_unlessTooLarge_eq_error {values : List Bytes} {value : Bytes} (hmem : value ∈ values)
    (h : ceiling ≤ value.length) (result : Except EnvelopeError α) :
    ∃ length, ceiling ≤ length
      ∧ unlessTooLarge values result = .error (.wire (.tooLarge length)) := by
  unfold unlessTooLarge
  cases hfind : values.find? fun value => ceiling ≤ value.length with
  | none => exact absurd (decide_eq_true h) (List.find?_eq_none.1 hfind value hmem)
  | some first =>
    have hlarge := List.find?_some hfind
    exact ⟨first.length, of_decide_eq_true hlarge, rfl⟩

theorem unlessTooLarge_append (values others : List Bytes) (result : Except EnvelopeError α) :
    unlessTooLarge (values ++ others) result
      = unlessTooLarge values (unlessTooLarge others result) := by
  unfold unlessTooLarge
  rw [List.find?_append]
  cases values.find? fun value => ceiling ≤ value.length <;> rfl

theorem unlessTooLarge_cons (value : Bytes) (values : List Bytes)
    (result : Except EnvelopeError α) :
    unlessTooLarge (value :: values) result
      = if ceiling ≤ value.length then .error (.wire (.tooLarge value.length))
        else unlessTooLarge values result := by
  unfold unlessTooLarge
  by_cases h : ceiling ≤ value.length <;> simp [h]

theorem unlessTooLarge_bind (values : List Bytes) (result : Except EnvelopeError α)
    (f : α → Except EnvelopeError β) :
    unlessTooLarge values result >>= f = unlessTooLarge values (result >>= f) := by
  unfold unlessTooLarge
  cases values.find? fun value => ceiling ≤ value.length <;> rfl

end

/-! ## Framing -/

/-- Some values as elements one after another, as one element. -/
def frame (values : List Bytes) : Except EnvelopeError Bytes := do
  let value ← onWire (encodeAll values)
  onWire (encode value)

/-- The values that are written on the way: some values, and all of them together. -/
def framed (values : List Bytes) : List Bytes := values ++ [values.flatMap element]

theorem onWire_encode (value : Bytes) :
    onWire (encode value) = unlessTooLarge [value] (.ok (element value)) := by
  rw [unlessTooLarge_cons]
  unfold encode LengthValue.length
  by_cases h : ceiling ≤ value.length <;> simp [h, Except.map, element]

theorem onWire_encodeAll (values : List Bytes) :
    onWire (encodeAll values) = unlessTooLarge values (.ok (values.flatMap element)) := by
  induction values with
  | nil => rfl
  | cons value values ih =>
    -- The first value is looked at before the others are.
    have hsplit : onWire (encodeAll (value :: values))
        = onWire (encode value) >>= fun first =>
            onWire (encodeAll values) >>= fun others => .ok (first ++ others) := by
      rw [encodeAll_cons]
      cases encode value with
      | error fault => rfl
      | ok first => cases encodeAll values <;> rfl
    rw [hsplit, onWire_encode, ih, unlessTooLarge_bind]
    show unlessTooLarge [value] (unlessTooLarge values (.ok (values.flatMap element)) >>= _) = _
    rw [unlessTooLarge_bind, ← unlessTooLarge_append]
    rfl

/-- Values are framed if neither one of them nor all together are too large. -/
theorem frame_eq (values : List Bytes) :
    frame values = unlessTooLarge (framed values) (.ok (element (values.flatMap element))) := by
  rw [frame, onWire_encodeAll, unlessTooLarge_bind]
  show unlessTooLarge values (onWire (encode (values.flatMap element))) = _
  rw [onWire_encode, framed, unlessTooLarge_append]

/-- What is drawn after values are framed is drawn unless one of them is too large. -/
theorem fst_bind_frame {α : Type} (values : List Bytes) (f : Bytes → Drawing EnvelopeError α)
    (e : Entropy) :
    ((liftM (frame values) >>= f : Drawing EnvelopeError α) e).1
      = unlessTooLarge (framed values) (f (element (values.flatMap element)) e).1 := by
  rw [frame_eq]
  unfold unlessTooLarge
  cases (framed values).find? fun value => ceiling ≤ value.length <;> rfl

/-- A data block is framed, and so is what it is sealed as. -/
theorem sealBlock_eq_frames (s : Suite) (block : DataBlock) (signing : SigningKey) (key : Bytes) :
    sealBlock s block signing key
      = (do
        let message ← frame block.fields
        let ciphertext ← Cipher.encrypt s key message
        frame [ciphertext, (signing.sign s ciphertext).val]) := by
  simp only [sealBlock, DataBlock.encode, DataBlock.value, frame, bind_assoc, Drawing.lift_bind]

/-- An envelope is framed three times: before it is sealed, its payload is framed too. -/
theorem pack_eq_frames (s : Suite) (now : Instant) (prekey : String) (signing : SigningKey)
    (key : Bytes) (payload : List Bytes) :
    pack s now prekey signing key payload
      = (do
        let data ← frame payload
        let block ← DataBlock.create s now data
        let envelope ← sealBlock s (block.setPrekey prekey) signing key
        return Hex.encode envelope) := by
  simp only [pack, frame, bind_assoc, Drawing.lift_bind]

/-! ## What is sealed -/

/-- What a data block is sealed as under an initial vector: its ciphertext and the signature. -/
def sealedPair (s : Suite) (block : DataBlock) (signing : SigningKey) (key : BlockKey)
    (iv : Block) : List Bytes :=
  let ciphertext := Cipher.encryptWith s key iv (element (block.fields.flatMap element))
  [ciphertext, (signing.sign s ciphertext).val]

/-- Where random bytes are there, a data block is sealed unless one of the values within the
envelope is too large. -/
theorem fst_sealBlock (s : Suite) (block : DataBlock) (signing : SigningKey) (key : BlockKey)
    {e : Entropy} (he : e.has 16 = true) :
    (sealBlock s block signing key.val e).1
      = unlessTooLarge
          (framed block.fields ++ framed (sealedPair s block signing key (e.peek 16)))
          (.ok (element ((sealedPair s block signing key (e.peek 16)).flatMap element))) := by
  have hencrypt := Cipher.encrypt_of_has he s key (element (block.fields.flatMap element))
  have hframe := frame_eq (sealedPair s block signing key (e.peek 16))
  rw [sealBlock_eq_frames, fst_bind_frame, Drawing.bind_of_eq_ok hencrypt, unlessTooLarge_append,
    ← hframe]
  rfl

/-! ## What is drawn -/

variable (s : Suite) (now : Instant) (prekey : String) (signing : SigningKey) (key : BlockKey)
  (payload : List Bytes) (e : Entropy)

/-- The data block that is made of a payload where random bytes are there. -/
def drawnBlock : DataBlock where
  time := Utf8.encode (Rfc3339.writeMillis now)
  nonce := (e.peek 32).val
  prekey := Utf8.encode prekey
  data := element (payload.flatMap element)
  dataHash := (s.hash (element (payload.flatMap element))).val

/-- Its ciphertext. -/
def drawnCiphertext : Bytes :=
  Cipher.encryptWith s key ((e.advance 32).peek 16)
    (element ((drawnBlock s now prekey payload e).fields.flatMap element))

/-- What is in the envelope: the ciphertext and its signature. -/
def drawnPair : List Bytes :=
  let ciphertext := drawnCiphertext s now prekey key payload e
  [ciphertext, (signing.sign s ciphertext).val]

/-- All values that are written within an envelope, in the order in which they are. -/
def layers : List Bytes :=
  framed payload ++ framed (drawnBlock s now prekey payload e).fields
    ++ framed (drawnPair s now prekey signing key payload e)

variable {e}

theorem create_of_has (data : Bytes) (he : e.has 32 = true) :
    DataBlock.create s now data e
      = (.ok { time := Utf8.encode (Rfc3339.writeMillis now), nonce := (e.peek 32).val, data := data,
               dataHash := (s.hash data).val }, e.advance 32) := by
  rw [DataBlock.create_eq]
  exact Drawing.bind_of_eq_ok (Drawing.bytes_of_has he _)

/-- Where random bytes are there, the envelope of a payload is made unless one of the values within
it is too large. -/
theorem fst_pack (he : e.has 48 = true) :
    (pack s now prekey signing key.val payload e).1
      = unlessTooLarge (layers s now prekey signing key payload e)
          (.ok (Hex.encode (element ((drawnPair s now prekey signing key payload e).flatMap element)))) := by
  have hcreate := create_of_has s now (element (payload.flatMap element))
    (Entropy.has_of_le he (by decide))
  have hblock : DataBlock.setPrekey
      { time := Utf8.encode (Rfc3339.writeMillis now), nonce := (e.peek 32).val
        data := element (payload.flatMap element)
        dataHash := (s.hash (element (payload.flatMap element))).val } prekey
      = drawnBlock s now prekey payload e := by
    rw [DataBlock.setPrekey, drawnBlock]
  have hseal := fst_sealBlock s (drawnBlock s now prekey payload e) signing key
    (Entropy.has_advance he)
  have hpair : sealedPair s (drawnBlock s now prekey payload e) signing key ((e.advance 32).peek 16)
      = drawnPair s now prekey signing key payload e := rfl
  -- Each of the frames refuses its own values, and nothing between them fails.
  rw [pack_eq_frames, fst_bind_frame, Drawing.bind_of_eq_ok hcreate, hblock,
    Drawing.fst_bind_pure, hseal, unlessTooLarge_bind, hpair, ← unlessTooLarge_append,
    ← List.append_assoc]
  rfl

end SealedEnvelope.Envelope
