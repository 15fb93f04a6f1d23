import SealedEnvelope.Proofs.Envelope.Format

/-!
# `SealedEnvelope.Proofs.Envelope.Sealing`: how an envelope is made

An envelope is made in two halves. The first draws random bytes and ends with the
ciphertext; the second signs the ciphertext and draws nothing. Only the first looks at
the payload, and only the second at the signing key.

Main statements:

* `pack_eq`: making an envelope is the one half and then the other;
* `exists_block_of_draw`: the ciphertext is that of a data block of the payload;
* `wrap_eq_ok_iff`: the text encloses the ciphertext and its signature;
* `Opening.unpack_of_draw`: opening leads back to the data block, whatever the text around
  the ciphertext looks like, and `Opening.exists_block_of_pack` says so of whole envelopes;
* `Opening.unpack_of_sealBlock`: the same for any data block that is sealed, be it of a payload
  or not.
-/

set_option autoImplicit false

namespace SealedEnvelope

namespace Envelope

open LengthValue (Begins encode encodeAll encodeAll_eq_ok_iff encode_eq_ok_iff)
open EnvelopeError (onWire onWire_eq_ok_iff)

/-! ## The two halves -/

/-- The ciphertext that goes into the envelope of a payload. -/
def drawCiphertext (s : Suite) (now : Instant) (prekey : String) (key : Bytes)
    (payload : List Bytes) : Drawing EnvelopeError Bytes := do
  let combined ← onWire (encodeAll payload)
  let data ← onWire (encode combined)
  let block ← DataBlock.create s now data
  let message ← (block.setPrekey prekey).encode
  Cipher.encrypt s key message

/-- The envelope around a ciphertext: the ciphertext and its signature, as text. -/
def wrap (s : Suite) (signing : SigningKey) (ciphertext : Bytes) : Except EnvelopeError String := do
  let value ← onWire (encodeAll [ciphertext, (signing.sign s ciphertext).val])
  let envelope ← onWire (encode value)
  return Hex.encode envelope

/-- An envelope is made by making its ciphertext and then the rest. -/
theorem pack_eq (s : Suite) (now : Instant) (prekey : String) (signing : SigningKey) (key : Bytes)
    (payload : List Bytes) :
    pack s now prekey signing key payload
      = (do
        let ciphertext ← drawCiphertext s now prekey key payload
        wrap s signing ciphertext) := by
  -- The two differ in how the binds are nested and in where a result is lifted.
  simp only [pack, drawCiphertext, sealBlock, wrap, bind_assoc, Drawing.lift_bind]
  rfl

/-- An envelope is made exactly if both halves are. -/
theorem pack_eq_ok_iff {s : Suite} {now : Instant} {prekey : String} {signing : SigningKey}
    {key : Bytes} {payload : List Bytes} {e : Entropy} {text : String} :
    (pack s now prekey signing key payload e).1 = .ok text
      ↔ ∃ ciphertext, (drawCiphertext s now prekey key payload e).1 = .ok ciphertext
          ∧ wrap s signing ciphertext = .ok text := by
  rw [pack_eq, Drawing.bind_apply]
  cases drawCiphertext s now prekey key payload e with
  | mk result e' =>
    cases result with
    | error err => simp
    | ok ciphertext =>
      simp only [Except.ok.injEq, exists_eq_left']
      exact Iff.rfl

/-! ## The data block -/

/-- Whether a data block is one of a payload for a prekey, made at some time. -/
structure Stamps (s : Suite) (now : Instant) (prekey : String) (payload : List Bytes)
    (block : DataBlock) : Prop where
  time : block.time = Utf8.encode (Rfc3339.writeMillis now)
  forPrekey : block.prekey = Utf8.encode prekey
  hashed : block.dataHash = (s.hash block.data).val
  carries : DataBlock.Carries block.data payload

/-- A block that is created is known but for its nonce. -/
theorem exists_nonce_of_create {s : Suite} {now : Instant} {data : Bytes} {e e' : Entropy}
    {block : DataBlock} (h : DataBlock.create s now data e = (.ok block, e')) :
    ∃ nonce, block
      = { time := Utf8.encode (Rfc3339.writeMillis now), nonce := nonce, data := data,
          dataHash := (s.hash data).val } := by
  rw [DataBlock.create_eq] at h
  obtain ⟨nonce, e₁, -, hblock⟩ := Drawing.exists_of_bind_eq_ok (congrArg Prod.fst h)
  exact ⟨nonce.val, (Except.ok.inj hblock).symm⟩

/-- A ciphertext that is drawn is that of a data block of the payload. -/
theorem exists_block_of_draw {s : Suite} {now : Instant} {prekey : String} {key : Bytes}
    {payload : List Bytes} {e : Entropy} {ciphertext : Bytes}
    (h : (drawCiphertext s now prekey key payload e).1 = .ok ciphertext) :
    ∃ (block : DataBlock) (message : Bytes) (cipherKey : BlockKey) (iv : Block),
      Stamps s now prekey payload block ∧ block.encode = .ok message ∧ cipherKey.val = key
        ∧ ciphertext = Cipher.encryptWith s cipherKey iv message := by
  -- Nonce and initial vector are drawn, and nothing is known of them.
  obtain ⟨combined, e₁, hcombined, h₁⟩ := Drawing.exists_of_bind_eq_ok h
  obtain ⟨data, e₂, hdata, h₂⟩ := Drawing.exists_of_bind_eq_ok h₁
  obtain ⟨block, e₃, hblock, h₃⟩ := Drawing.exists_of_bind_eq_ok h₂
  obtain ⟨message, e₄, hmessage, h₄⟩ := Drawing.exists_of_bind_eq_ok h₃
  obtain ⟨cipherKey, iv, hkey, hciphertext⟩ := Cipher.exists_of_encrypt (Prod.ext h₄ rfl)
  have hcarries : DataBlock.Carries data payload :=
    ⟨combined, Begins.of_encode (onWire_eq_ok_iff.1 (Drawing.lift_eq_ok_iff.1 hdata).1),
      onWire_eq_ok_iff.1 (Drawing.lift_eq_ok_iff.1 hcombined).1⟩
  obtain ⟨nonce, rfl⟩ := exists_nonce_of_create hblock
  have hencode := (Drawing.lift_eq_ok_iff.1 hmessage).1
  refine ⟨_, message, cipherKey, iv, ?_, hencode, hkey, hciphertext⟩
  exact { time := by rw [DataBlock.setPrekey], forPrekey := by rw [DataBlock.setPrekey],
          hashed := by rw [DataBlock.setPrekey], carries := hcarries }

/-! ## The text -/

/-- The text around a ciphertext is there exactly if the lengths are within their bounds, and
then it spells the ciphertext and its signature. -/
theorem wrap_eq_ok_iff {s : Suite} {signing : SigningKey} {ciphertext : Bytes} {text : String} :
    wrap s signing ciphertext = .ok text
      ↔ ∃ value, encodeAll [ciphertext, (signing.sign s ciphertext).val] = .ok value
          ∧ value.length < LengthValue.ceiling
          ∧ text = Hex.encode (LengthValue.element value) := by
  unfold wrap
  cases encodeAll [ciphertext, (signing.sign s ciphertext).val] with
  | error err => simp [bind, Except.bind]
  | ok value =>
    -- Both elements together can reach the ceiling where neither of them does.
    cases Nat.lt_or_ge value.length LengthValue.ceiling with
    | inl hlt =>
      simp [bind, Except.bind, pure, Except.pure,
        LengthValue.encode_of_lt hlt, hlt, eq_comm]
    | inr hle =>
      have herror : encode value = .error (.tooLarge value.length) := by
        rw [encode, LengthValue.length, if_pos hle]
        rfl
      simp [bind, Except.bind, herror, Nat.not_lt.2 hle]

/-- A ciphertext that some text encloses with a signature has a text around it, because its
own signature is no longer. -/
theorem exists_wrap_of_encloses {s : Suite} {ciphertext : Bytes} {signature : FixedBytes 64}
    {text : String} (h : Encloses text ciphertext signature.val) (signing : SigningKey) :
    ∃ text', wrap s signing ciphertext = .ok text' := by
  obtain ⟨value, extra, ⟨bytes, -, hbegins⟩, hall⟩ := h
  obtain ⟨hlt, rfl⟩ := encodeAll_eq_ok_iff.1 hall
  have hvalue := hbegins.length_lt
  simp only [List.flatMap_cons, List.length_append, LengthValue.length_element,
    signature.property] at hvalue
  -- All signatures have the same length, and what is enclosed after one only takes room.
  refine ⟨_, wrap_eq_ok_iff.2 ⟨_, encodeAll_eq_ok_iff.2 ⟨?_, rfl⟩, ?_, rfl⟩⟩
  · simp only [List.forall_mem_cons, (signing.sign s ciphertext).property, List.not_mem_nil,
      false_imp_iff, implies_true, and_true]
    exact ⟨hlt ciphertext List.mem_cons_self, by decide⟩
  · simp only [List.flatMap_cons, List.flatMap_nil, List.length_append, List.length_nil,
      LengthValue.length_element, (signing.sign s ciphertext).property]
    omega

/-- Any spelling of the text around a ciphertext encloses it and its signature. -/
theorem Encloses.of_wrap {s : Suite} {signing : SigningKey} {ciphertext : Bytes}
    {text spelling : String} (h : wrap s signing ciphertext = .ok text)
    (hspelling : Text.Respells spelling text) :
    Encloses spelling ciphertext (signing.sign s ciphertext).val := by
  obtain ⟨value, hall, hlt, rfl⟩ := wrap_eq_ok_iff.1 h
  refine ⟨value, [], ⟨_, hspelling, ?_⟩, hall⟩
  exact Begins.of_encode (LengthValue.encode_of_lt hlt)

namespace Opening

/-- Opening with the right key leads back to the data block that a ciphertext was drawn
for. -/
theorem unpack_of_draw {s : Suite} (hdeciphers : s.Deciphers) {o : Opening} {now : Instant}
    {prekey : String} {payload : List Bytes} {e : Entropy} {ciphertext signature : Bytes}
    {text : String} (hdraw : (drawCiphertext s now prekey o.key payload e).1 = .ok ciphertext)
    (hencloses : Encloses text ciphertext signature) (htrusts : o.Trusts s ciphertext signature) :
    ∃ block, Stamps s now prekey payload block ∧ o.unpack s text = o.payload s block := by
  obtain ⟨block, message, cipherKey, iv, hstamps, hmessage, hkey, rfl⟩ :=
    exists_block_of_draw hdraw
  have hdecrypt : Cipher.decrypt s o.key (Cipher.encryptWith s cipherKey iv message)
      = .ok message := by
    rw [← hkey]
    exact Cipher.decrypt_encryptWith hdeciphers cipherKey iv message
  have hblock := DataBlock.decode_eq_ok_iff.2 (DataBlock.Holds.of_encode hmessage)
  -- The text matters up to the ciphertext only, so any that encloses it will do.
  refine ⟨block, hstamps, ?_⟩
  rw [unpack_of_delivers ⟨_, signature, hencloses, htrusts, hdecrypt⟩, hblock]
  rfl

/-- Opening any spelling of an envelope leads back to its data block. -/
theorem exists_block_of_pack {s : Suite} (hdeciphers : s.Deciphers) {o : Opening} {now : Instant}
    {prekey : String} {signing : SigningKey} {payload : List Bytes} {e : Entropy}
    {text spelling : String} (hpack : (pack s now prekey signing o.key payload e).1 = .ok text)
    (hspelling : Text.Respells spelling text)
    (htrusts : ∀ ciphertext, (drawCiphertext s now prekey o.key payload e).1 = .ok ciphertext →
      o.Trusts s ciphertext (signing.sign s ciphertext).val) :
    ∃ block, Stamps s now prekey payload block ∧ o.unpack s spelling = o.payload s block := by
  obtain ⟨ciphertext, hdraw, hwrap⟩ := pack_eq_ok_iff.1 hpack
  exact unpack_of_draw hdeciphers hdraw (Encloses.of_wrap hwrap hspelling)
    (htrusts ciphertext hdraw)

/-- Opening any spelling of what a data block was sealed as leads back to it. -/
theorem unpack_of_sealBlock {s : Suite} (hdeciphers : s.Deciphers) {o : Opening}
    {block : DataBlock} {signing : SigningKey} {e : Entropy} {envelope : Bytes} {spelling : String}
    (hseal : (sealBlock s block signing o.key e).1 = .ok envelope)
    (hspelling : Text.Respells spelling (Hex.encode envelope))
    (htrusts : ∀ ciphertext, o.Trusts s ciphertext (signing.sign s ciphertext).val) :
    o.unpack s spelling = o.payload s block := by
  obtain ⟨message, e₁, hmessage, h₁⟩ := Drawing.exists_of_bind_eq_ok hseal
  obtain ⟨ciphertext, e₂, hciphertext, h₂⟩ := Drawing.exists_of_bind_eq_ok h₁
  obtain ⟨value, e₃, hvalue, h₃⟩ := Drawing.exists_of_bind_eq_ok h₂
  have hwrap : wrap s signing ciphertext = .ok (Hex.encode envelope) := by
    rw [wrap, (Drawing.lift_eq_ok_iff.1 hvalue).1]
    show (onWire (encode value) >>= fun envelope => pure (Hex.encode envelope)) = _
    rw [(Drawing.lift_eq_ok_iff.1 (Prod.ext h₃ rfl)).1]
    rfl
  obtain ⟨cipherKey, iv, hkey, rfl⟩ := Cipher.exists_of_encrypt hciphertext
  have hdecrypt : Cipher.decrypt s o.key (Cipher.encryptWith s cipherKey iv message)
      = .ok message := by
    rw [← hkey]
    exact Cipher.decrypt_encryptWith hdeciphers cipherKey iv message
  have hblock := DataBlock.decode_eq_ok_iff.2
    (DataBlock.Holds.of_encode (Drawing.lift_eq_ok_iff.1 hmessage).1)
  rw [unpack_of_delivers ⟨_, _, Encloses.of_wrap hwrap hspelling, htrusts _, hdecrypt⟩, hblock]
  rfl

/-- Signatures of the signer whose public key is expected are trusted. -/
theorem trusts_of_acceptsOwn {s : Suite} {o : Opening} {signing : SigningKey}
    (hpeer : o.peer = signing.verifyingKey s) (haccepts : s.AcceptsOwn signing.seed)
    (ciphertext : Bytes) : o.Trusts s ciphertext (signing.sign s ciphertext).val := by
  refine .inr ⟨signing.sign s ciphertext, rfl, ?_⟩
  rw [hpeer]
  exact haccepts ciphertext

end Opening

end Envelope

end SealedEnvelope
