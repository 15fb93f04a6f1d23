import SealedEnvelope.Crypto.Suite
import SealedEnvelope.Entropy
import SealedEnvelope.Envelope.Error

/-!
# `SealedEnvelope.Envelope.Cipher`: messages under the block cipher

A message is padded to whole blocks, and each block is added to the ciphertext of the
one before it and then enciphered; a random initial vector stands before the first. The
padding is one to sixteen bytes, each of them their number, so that it can be taken off
without knowing the length of the message.
-/

set_option autoImplicit false

namespace SealedEnvelope.Cipher

/-- The number of bytes of a block and of the initial vector. -/
def blockLength : Nat := 16

/-- The message with its padding. -/
def pad (message : Bytes) : Bytes :=
  let n := blockLength - message.length % blockLength
  message ++ List.replicate n (UInt8.ofNat n)

/-- The message without its padding, if it ends in one. -/
def unpad? (padded : Bytes) : Option Bytes :=
  let n := (padded.getLastD 0).toNat
  let kept := padded.length - n
  if 1 ≤ n ∧ n ≤ blockLength ∧ padded.drop kept = List.replicate n (UInt8.ofNat n) then
    some (padded.take kept)
  else
    none

/-- A byte string as blocks. -/
def blocks (bytes : Bytes) : List Block := (chunks blockLength bytes).map (FixedBytes.ofPrefix 16)

/-- The blocks one after another. -/
def join (blocks : List Block) : Bytes := blocks.flatMap Subtype.val

/-- Each block added to the one before it in the result and then enciphered. -/
def chain (encipher : Block → Block) : (before : Block) → List Block → List Block
  | _, [] => []
  | before, block :: rest =>
    let result := encipher (block.xor before)
    result :: chain encipher result rest

/-- Each block deciphered and then added to the one before it. -/
def unchain (decipher : Block → Block) : (before : Block) → List Block → List Block
  | _, [] => []
  | before, block :: rest => (decipher block).xor before :: unchain decipher block rest

/-- The initial vector followed by the ciphertext of a message. -/
def encryptWith (s : Suite) (key : BlockKey) (iv : Block) (message : Bytes) : Bytes :=
  iv.val ++ join (chain (s.encryptBlock key) iv (blocks (pad message)))

/-- A fresh initial vector. -/
def drawIv : Drawing EnvelopeError Block := Drawing.bytes .random 16

/-- Encrypts a message. The initial vector is drawn before the key is looked at. -/
def encrypt (s : Suite) (key message : Bytes) : Drawing EnvelopeError Bytes := do
  let iv ← drawIv
  match BlockKey.ofBytes? key with
  | some key => return encryptWith s key iv message
  | none => throw (.invalidKey (.cipherLength key.length))

/-- Decrypts an initial vector and a ciphertext. -/
def decrypt (s : Suite) (key bytes : Bytes) : Except EnvelopeError Bytes :=
  if bytes.length < 2 * blockLength then
    .error (.decryption .tooShort)
  else if bytes.length % blockLength ≠ 0 then
    .error (.decryption .partialBlock)
  else
    match BlockKey.ofBytes? key with
    | none => .error (.invalidKey (.cipherLength key.length))
    | some key =>
      let iv := FixedBytes.ofPrefix 16 bytes
      let padded := join (unchain (s.decryptBlock key) iv (blocks (bytes.drop blockLength)))
      match unpad? padded with
      | some message => .ok message
      | none => .error (.decryption .padding)

end SealedEnvelope.Cipher
