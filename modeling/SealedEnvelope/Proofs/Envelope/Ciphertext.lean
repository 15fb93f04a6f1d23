import Mathlib.Data.Set.Finite.List
import SealedEnvelope.Proofs.Crypto.Standard
import SealedEnvelope.Proofs.Envelope.Cipher

/-!
# `SealedEnvelope.Proofs.Envelope.Ciphertext`: a ciphertext is that of its message

`Proofs.Envelope.Cipher` goes from a message to its ciphertext and back. Here the way is the
other one: whatever byte string is decrypted, encrypting the message again under the same
initial vector gives the byte string back. Each step of the reader has to be strict for this:

* `Suite.Deciphers.encryptBlock_decryptBlock`: enciphering undoes deciphering too, since there
  are finitely many blocks;
* `pad_of_unpad?`: only the padding that would have been put on is taken off;
* `chain_unchain`: the chaining is undone in the other direction;
* `encryptWith_of_decrypt`: the three together.

`encrypt_decrypt_inverse` says both directions, and which byte strings are refused for their
length.
-/

set_option autoImplicit false

namespace SealedEnvelope

/-! ## Blocks -/

/-- There are finitely many blocks. -/
theorem finite_block : Finite Block :=
  have : Finite UInt8 := Finite.of_injective UInt8.toFin fun _ _ => UInt8.toFin_inj.1
  (List.finite_length_eq UInt8 16).to_subtype

/-- Where deciphering undoes enciphering, enciphering undoes deciphering: no two blocks are
enciphered alike, so every block is the cipher of one. -/
theorem Suite.Deciphers.encryptBlock_decryptBlock {s : Suite} (h : s.Deciphers) (key : BlockKey)
    (block : Block) : s.encryptBlock key (s.decryptBlock key block) = block := by
  have : Finite Block := finite_block
  have hleft : Function.LeftInverse (s.decryptBlock key) (s.encryptBlock key) := h key
  have hsurjective := Finite.injective_iff_surjective.1 hleft.injective
  exact hleft.rightInverse_of_surjective hsurjective block

namespace Cipher

/-! ## Padding -/

/-- What is left when the padding is taken off has this padding, and no other. -/
theorem pad_of_unpad? {padded message : Bytes} (hwhole : padded.length % blockLength = 0)
    (h : unpad? padded = some message) : pad message = padded := by
  obtain ⟨n, hn⟩ : ∃ n, n = (padded.getLastD 0).toNat := ⟨_, rfl⟩
  rw [unpad?, ← hn] at h
  obtain ⟨⟨hpos, hle, hdrop⟩, htake⟩ := Option.ite_none_right_eq_some.1 h
  obtain rfl := Option.some.inj htake
  -- The padding that was found is no longer than what it was found in.
  have hlength : padded.length - (padded.length - n) = n := by
    have := congrArg List.length hdrop
    rwa [List.length_drop, List.length_replicate] at this
  have hcount : blockLength - (padded.take (padded.length - n)).length % blockLength = n := by
    rw [List.length_take]
    rw [blockLength] at hwhole hle ⊢
    omega
  rw [pad, hcount, ← hdrop, List.take_append_drop]

/-! ## Chaining -/

/-- Blocks that have been taken apart are chained to what they were if enciphering undoes
deciphering. -/
theorem chain_unchain {encipher decipher : Block → Block}
    (h : ∀ block, encipher (decipher block) = block) (before : Block) (bs : List Block) :
    chain encipher before (unchain decipher before bs) = bs := by
  induction bs generalizing before with
  | nil => rfl
  | cons block bs ih =>
    have hblock : encipher (((decipher block).xor before).xor before) = block := by
      rw [FixedBytes.xor_xor_cancel, h]
    rw [unchain, chain, hblock, ih]

/-! ## Whole messages -/

section
variable {s : Suite} {bytes message : Bytes}

/-- What is decrypted is an initial vector and whole blocks, at least one of them, which are
taken apart and have a padding. -/
theorem of_decrypt_eq_ok {key : BlockKey} (h : decrypt s key.val bytes = .ok message) :
    2 * blockLength ≤ bytes.length ∧ bytes.length % blockLength = 0
      ∧ unpad? (join (unchain (s.decryptBlock key) (FixedBytes.ofPrefix 16 bytes)
          (blocks (bytes.drop blockLength)))) = some message := by
  unfold decrypt at h
  split at h
  · cases h
  · next hlong =>
    split at h
    · cases h
    · next hwhole =>
      simp only [BlockKey.ofBytes?_val] at h
      split at h
      · next hunpad =>
        cases h
        exact ⟨Nat.le_of_not_lt hlong, Decidable.of_not_not hwhole, hunpad⟩
      · cases h

/-- A byte string is refused for its length whatever the key is. -/
theorem decrypt_of_length (key : Bytes)
    (h : bytes.length < 2 * blockLength ∨ bytes.length % blockLength ≠ 0) :
    ∃ fault, decrypt s key bytes = .error (.decryption fault) := by
  unfold decrypt
  by_cases hshort : bytes.length < 2 * blockLength
  · exact ⟨.tooShort, if_pos hshort⟩
  · have hpartial := h.resolve_left hshort
    exact ⟨.partialBlock, by rw [if_neg hshort, if_pos hpartial]⟩

/-- The initial vector of a byte string that is decrypted is its first sixteen bytes. -/
theorem ofPrefix_val_of_le (h : 16 ≤ bytes.length) :
    (FixedBytes.ofPrefix 16 bytes).val = bytes.take 16 := by
  show bytes.take 16 ++ List.replicate (16 - bytes.length) 0 = bytes.take 16
  rw [Nat.sub_eq_zero_of_le h, List.replicate_zero, List.append_nil]

/-- What is decrypted is encrypted to what it was, under the initial vector that it had. -/
theorem encryptWith_of_decrypt (hdeciphers : s.Deciphers) {key : BlockKey}
    (h : decrypt s key.val bytes = .ok message) {iv : Block} (hiv : iv.val = bytes.take 16) :
    encryptWith s key iv message = bytes := by
  obtain ⟨hlong, hwhole, hunpad⟩ := of_decrypt_eq_ok h
  rw [blockLength] at hlong hwhole
  have hfront : FixedBytes.ofPrefix 16 bytes = iv :=
    Subtype.ext ((ofPrefix_val_of_le (by omega)).trans hiv.symm)
  have hrest : (bytes.drop blockLength).length % blockLength = 0 := by
    rw [List.length_drop, blockLength]
    omega
  rw [hfront] at hunpad
  have hpad : pad message = join (unchain (s.decryptBlock key) iv
      (blocks (bytes.drop blockLength))) := by
    refine pad_of_unpad? ?_ hunpad
    rw [length_join, blockLength, Nat.mul_mod_right]
  calc encryptWith s key iv message
      = iv.val ++ join (chain (s.encryptBlock key) iv (blocks (pad message))) := rfl
    _ = iv.val ++ join (blocks (bytes.drop blockLength)) := by
        rw [hpad, blocks_join, chain_unchain (hdeciphers.encryptBlock_decryptBlock key)]
    _ = bytes.take 16 ++ bytes.drop 16 := by
        rw [join_blocks hrest, hiv]
        rfl
    _ = bytes := List.take_append_drop 16 bytes

end

/-- Encrypting and decrypting under a key of 16, 24 or 32 bytes. Every message is encrypted,
under the initial vector that is drawn, to that vector and the whole blocks that hold the
message and at least one byte more, and these are decrypted to the message. Whatever is
decrypted is what its message is encrypted to under its first sixteen bytes, so that with the
same sixteen bytes no other byte string is decrypted to that message. What is no initial vector
and whole blocks, at least one of them, is refused as such under a key of any length. -/
theorem encrypt_decrypt_inverse {s : Suite} (hdeciphers : s.Deciphers) :
    (∀ (key : BlockKey) (message : Bytes) (e : Entropy), e.has 16 = true →
        ∃ bytes, encrypt s key.val message e = (.ok bytes, e.advance 16)
          ∧ decrypt s key.val bytes = .ok message
          ∧ bytes.take 16 = (e.peek 16).val
          ∧ bytes.length = 16 + 16 * (message.length / 16 + 1))
      ∧ (∀ (key : BlockKey) (bytes message : Bytes), decrypt s key.val bytes = .ok message →
          ∀ e : Entropy, e.has 16 = true → (e.peek 16).val = bytes.take 16 →
            encrypt s key.val message e = (.ok bytes, e.advance 16))
      ∧ (∀ (key : BlockKey) (bytes bytes' message : Bytes), bytes.take 16 = bytes'.take 16 →
          decrypt s key.val bytes = .ok message → decrypt s key.val bytes' = .ok message →
          bytes = bytes')
      ∧ (∀ key bytes : Bytes, bytes.length < 32 ∨ bytes.length % 16 ≠ 0 →
          ∃ fault, decrypt s key bytes = .error (.decryption fault)) := by
  refine ⟨fun key message e he => ?_, fun key bytes message h e he hiv => ?_,
    fun key bytes bytes' message hsame h h' => ?_, fun key bytes h => decrypt_of_length key h⟩
  · exact ⟨_, encrypt_of_has he s key message, decrypt_encryptWith hdeciphers key _ message,
      List.take_left' (e.peek 16).property, length_encryptWith s key _ message⟩
  · rw [encrypt_of_has he, encryptWith_of_decrypt hdeciphers h hiv]
  · obtain ⟨hlong, -, -⟩ := of_decrypt_eq_ok h
    rw [blockLength] at hlong
    have hiv : (FixedBytes.ofPrefix 16 bytes).val = bytes.take 16 := ofPrefix_val_of_le (by omega)
    exact (encryptWith_of_decrypt hdeciphers h hiv).symm.trans
      (encryptWith_of_decrypt hdeciphers h' (hiv.trans hsame))

/-- A message that is a whole block and looks like padding, under a key of zeros: its
ciphertext has two blocks behind the initial vector, and from the ciphertext it is encrypted
again. -/
theorem encrypt_decrypt_inverse_wholeBlock :
    Suite.standard.Deciphers
      ∧ (let key : BlockKey := ⟨List.replicate 16 0, .inl rfl⟩
         let message : Bytes := List.replicate 16 16
         ∃ bytes,
          (encrypt .standard key.val message (.ofBytes (List.replicate 16 7))).1 = .ok bytes
            ∧ decrypt .standard key.val bytes = .ok message
            ∧ bytes.take 16 = List.replicate 16 7 ∧ bytes.length = 48
            ∧ (encrypt .standard key.val message (.ofBytes (bytes.take 16))).1 = .ok bytes)
      ∧ ∃ fault, decrypt .standard [] (List.replicate 33 0) = .error (.decryption fault) := by
  obtain ⟨hencrypt, hback, -, hrefused⟩ := encrypt_decrypt_inverse Suite.standard_deciphers
  obtain ⟨bytes, hbytes, hdecrypt, hiv, hlength⟩ := hencrypt ⟨List.replicate 16 0, .inl rfl⟩
    (List.replicate 16 16) (.ofBytes (List.replicate 16 7)) (by decide)
  have hseven : bytes.take 16 = List.replicate 16 7 := hiv.trans (by decide)
  have hagain := hback _ bytes _ hdecrypt (.ofBytes (bytes.take 16))
    (by rw [hseven]; decide) (by rw [hseven]; decide)
  exact ⟨Suite.standard_deciphers,
    ⟨bytes, congrArg Prod.fst hbytes, hdecrypt, hseven, hlength, congrArg Prod.fst hagain⟩,
    hrefused [] _ (.inr (by decide))⟩

end Cipher

end SealedEnvelope
