import SealedEnvelope.Envelope.Cipher
import SealedEnvelope.Proofs.Bytes
import SealedEnvelope.Proofs.Crypto.Suite
import SealedEnvelope.Proofs.Outcome

/-!
# `SealedEnvelope.Proofs.Envelope.Cipher`: messages are decrypted to what was encrypted

A message is padded, cut into blocks, chained, and put behind its initial vector. Each of
these is undone by its counterpart, for messages of every length:

* `unpad?_pad`: the padding is found again, also where it is a whole block;
* `blocks_join` and `join_blocks`: blocks and whole-block byte strings are the same;
* `unchain_chain`: the chaining is undone if deciphering undoes enciphering;
* `decrypt_encryptWith`: the three together;
* `length_encryptWith`: how long the result is;
* `encrypt_of_has`: with an initial vector to be drawn, `encrypt` gives what `encryptWith` does.
-/

set_option autoImplicit false

namespace SealedEnvelope

/-- A byte string that has the right length is a key. -/
theorem BlockKey.ofBytes?_val (key : BlockKey) : BlockKey.ofBytes? key.val = some key :=
  dif_pos key.property

/-- A key was made from its bytes. -/
theorem BlockKey.val_of_ofBytes? {bytes : Bytes} {key : BlockKey}
    (h : BlockKey.ofBytes? bytes = some key) : key.val = bytes := by
  unfold BlockKey.ofBytes? at h
  split at h
  · cases h
    rfl
  · cases h

namespace Cipher

/-! ## Blocks -/

@[simp] theorem join_nil : join [] = [] := rfl

@[simp] theorem join_cons (block : Block) (rest : List Block) :
    join (block :: rest) = block.val ++ join rest := List.flatMap_cons

/-- Blocks make a byte string of sixteen bytes for each. -/
theorem length_join (bs : List Block) : (join bs).length = 16 * bs.length := by
  induction bs with
  | nil => rfl
  | cons block bs ih =>
    rw [join_cons, List.length_append, ih, block.property, List.length_cons]
    omega

/-- Blocks are found again in the byte string that they make. -/
theorem blocks_join (bs : List Block) : blocks (join bs) = bs := by
  unfold blocks
  induction bs with
  | nil => simp [chunks]
  | cons block bs ih =>
    rw [join_cons, chunks_append (n := blockLength) (by decide) block.property, List.map_cons, ih]
    have h := FixedBytes.ofPrefix_val_append block []
    rw [List.append_nil] at h
    rw [h]

/-- A byte string of sixteen bytes for each of so many blocks is made of blocks. -/
theorem exists_eq_join {count : Nat} {bytes : Bytes} (h : bytes.length = 16 * count) :
    ∃ bs : List Block, bytes = join bs := by
  induction count generalizing bytes with
  | zero => exact ⟨[], List.length_eq_zero_iff.1 h⟩
  | succ count ih =>
    obtain ⟨piece, rest, rfl, hpiece, hrest⟩ := exists_piece h
    obtain ⟨bs, rfl⟩ := ih hrest
    exact ⟨⟨piece, hpiece⟩ :: bs, (join_cons ⟨piece, hpiece⟩ bs).symm⟩

/-- A byte string of whole blocks is what its blocks make. -/
theorem join_blocks {bytes : Bytes} (h : bytes.length % blockLength = 0) :
    join (blocks bytes) = bytes := by
  have hlen : bytes.length = 16 * (bytes.length / 16) := by
    unfold blockLength at h
    omega
  obtain ⟨bs, rfl⟩ := exists_eq_join hlen
  rw [blocks_join]

/-! ## Padding -/

theorem length_pad (message : Bytes) : (pad message).length = 16 * (message.length / 16 + 1) := by
  simp only [pad, blockLength, List.length_append, List.length_replicate]
  omega

/-- The padding is found again. -/
theorem unpad?_pad (message : Bytes) : unpad? (pad message) = some message := by
  -- Of the number of padding bytes only its range is used, so it is given a name.
  obtain ⟨n, hn⟩ : ∃ n, n = blockLength - message.length % blockLength := ⟨_, rfl⟩
  have hrange : 1 ≤ n ∧ n ≤ 16 := by
    rw [hn, blockLength]
    omega
  have hpad : pad message = message ++ List.replicate n (UInt8.ofNat n) := by
    rw [hn]
    rfl
  have hlast : (message ++ List.replicate n (UInt8.ofNat n)).getLastD 0 = UInt8.ofNat n := by
    obtain ⟨m, rfl⟩ := Nat.exists_eq_add_of_le hrange.1
    rw [Nat.add_comm, List.replicate_succ', ← List.append_assoc, List.getLastD_concat]
  have hnumber : (UInt8.ofNat n).toNat = n := by
    rw [UInt8.toNat_ofNat']
    omega
  have hkept : (message ++ List.replicate n (UInt8.ofNat n)).length - n = message.length := by
    rw [List.length_append, List.length_replicate]
    omega
  rw [hpad]
  simp only [unpad?, hlast, hnumber, hkept, List.drop_left, List.take_left]
  rw [if_pos ⟨hrange.1, hrange.2, trivial⟩]

/-! ## Chaining -/

theorem length_chain (encipher : Block → Block) (before : Block) (bs : List Block) :
    (chain encipher before bs).length = bs.length := by
  induction bs generalizing before with
  | nil => rfl
  | cons block bs ih => rw [chain, List.length_cons, List.length_cons, ih]

/-- The chaining is undone if deciphering undoes enciphering. -/
theorem unchain_chain {encipher decipher : Block → Block}
    (h : ∀ block, decipher (encipher block) = block) (before : Block) (bs : List Block) :
    unchain decipher before (chain encipher before bs) = bs := by
  induction bs generalizing before with
  | nil => rfl
  | cons block bs ih => rw [chain, unchain, h, FixedBytes.xor_xor_cancel, ih]

/-! ## Whole messages -/

/-- A ciphertext is an initial vector and the whole blocks that hold the message and at
least one byte more. -/
theorem length_encryptWith (s : Suite) (key : BlockKey) (iv : Block) (message : Bytes) :
    (encryptWith s key iv message).length = 16 + 16 * (message.length / 16 + 1) := by
  have hpad : (pad message).length % blockLength = 0 := by
    rw [length_pad, blockLength]
    omega
  have hblocks : 16 * (blocks (pad message)).length = 16 * (message.length / 16 + 1) := by
    rw [← length_join, join_blocks hpad, length_pad]
  rw [encryptWith, List.length_append, iv.property, length_join, length_chain, hblocks]

/-- A message is encrypted under the initial vector that is drawn. -/
theorem encrypt_of_has {e : Entropy} (h : e.has 16 = true) (s : Suite) (key : BlockKey)
    (message : Bytes) :
    encrypt s key.val message e = (.ok (encryptWith s key (e.peek 16) message), e.advance 16) := by
  have hdrawn : drawIv e = (.ok (e.peek 16), e.advance 16) := Drawing.bytes_of_has h _
  rw [encrypt, Drawing.bind_of_eq_ok hdrawn, BlockKey.ofBytes?_val]
  rfl

/-- What is encrypted is encrypted with a key of a length that the cipher has, under the initial
vector that is drawn. -/
theorem exists_of_encrypt {s : Suite} {key message ciphertext : Bytes} {e e' : Entropy}
    (h : encrypt s key message e = (.ok ciphertext, e')) :
    ∃ (cipherKey : BlockKey) (iv : Block), cipherKey.val = key
      ∧ ciphertext = encryptWith s cipherKey iv message := by
  obtain ⟨iv, e₁, -, h₁⟩ := Drawing.exists_of_bind_eq_ok (congrArg Prod.fst h)
  cases hkey : BlockKey.ofBytes? key with
  | none =>
    rw [hkey] at h₁
    cases h₁
  | some cipherKey =>
    rw [hkey] at h₁
    exact ⟨cipherKey, iv, BlockKey.val_of_ofBytes? hkey, (Except.ok.inj h₁).symm⟩

/-- A message is decrypted to what was encrypted. -/
theorem decrypt_encryptWith {s : Suite} (h : s.Deciphers) (key : BlockKey) (iv : Block)
    (message : Bytes) : decrypt s key.val (encryptWith s key iv message) = .ok message := by
  have hlen := length_encryptWith s key iv message
  have hpad : (pad message).length % blockLength = 0 := by
    rw [length_pad, blockLength]
    omega
  have hiv : FixedBytes.ofPrefix 16 (encryptWith s key iv message) = iv :=
    FixedBytes.ofPrefix_val_append iv _
  have hrest : (encryptWith s key iv message).drop blockLength
      = join (chain (s.encryptBlock key) iv (blocks (pad message))) :=
    List.drop_left' iv.property
  have hlong : ¬ (encryptWith s key iv message).length < 2 * blockLength := by
    rw [hlen, blockLength]
    omega
  have hwhole : ¬ (encryptWith s key iv message).length % blockLength ≠ 0 := by
    rw [hlen, blockLength]
    omega
  -- No check of lengths fails, and each step then undoes its counterpart.
  rw [decrypt, if_neg hlong, if_neg hwhole, BlockKey.ofBytes?_val]
  simp only [hiv, hrest, blocks_join, unchain_chain (h key), join_blocks hpad, unpad?_pad]

end Cipher

end SealedEnvelope
