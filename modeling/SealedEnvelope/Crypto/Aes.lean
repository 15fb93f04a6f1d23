import SealedEnvelope.Crypto.Suite

/-!
# `SealedEnvelope.Crypto.Aes`: the block cipher AES

Bytes are polynomials over the field of two elements modulo
`x^8 + x^4 + x^3 + x + 1`. The substitution box is the inverse in that field followed
by an affine map, and is computed once into a table together with its inverse.

A block is taken in the order of its bytes: byte `r + 4 * c` stands in row `r` and
column `c` of the square that the cipher's description works on.
-/

set_option autoImplicit false

namespace SealedEnvelope.Aes

/-- The polynomial multiplied by `x`. -/
def double (a : UInt8) : UInt8 :=
  if a &&& 0x80 = 0 then a <<< 1 else (a <<< 1) ^^^ 0x1B

/-- The product of two polynomials, where `bits` bits of the second are looked at. -/
def mulBits : (bits : Nat) → UInt8 → UInt8 → UInt8
  | 0, _, _ => 0
  | bits + 1, a, b =>
    (if b &&& 1 = 0 then 0 else a) ^^^ mulBits bits (double a) (b >>> 1)

/-- The product of two polynomials. -/
def mul (a b : UInt8) : UInt8 := mulBits 8 a b

/-- The inverse of a polynomial, which is its power of 254; zero stays zero. -/
def inverse (a : UInt8) : UInt8 :=
  let a2 := mul a a
  let a4 := mul a2 a2
  let a8 := mul a4 a4
  let a16 := mul a8 a8
  let a32 := mul a16 a16
  let a64 := mul a32 a32
  let a128 := mul a64 a64
  mul (mul (mul a2 a4) (mul a8 a16)) (mul (mul a32 a64) a128)

/-- The byte with its bits moved up by `n` places, where those that leave come back below. -/
def rotate (a : UInt8) (n : UInt8) : UInt8 := (a <<< n) ||| (a >>> (8 - n))

/-- The image of a byte under the substitution box. -/
def substituteByte (a : UInt8) : UInt8 :=
  let b := inverse a
  b ^^^ rotate b 1 ^^^ rotate b 2 ^^^ rotate b 3 ^^^ rotate b 4 ^^^ 0x63

/-- The substitution box as a table. -/
def substitution : Array UInt8 := Array.ofFn fun i : Fin 256 => substituteByte (UInt8.ofNat i.val)

/-- The inverse of the substitution box as a table. -/
def inverseSubstitution : Array UInt8 :=
  (List.range 256).foldl
    (fun table i => table.setIfInBounds (substituteByte (UInt8.ofNat i)).toNat (UInt8.ofNat i))
    (Array.replicate 256 0)

/-- A byte looked up in a table. -/
def lookUp (table : Array UInt8) (a : UInt8) : UInt8 := table.getD a.toNat 0

/-! ## The steps of a round -/

/-- Row `r` moved to the left by `r` columns. -/
def shiftRows (b : Block) : Block := FixedBytes.ofFn 16 fun i => b.byteAt (5 * i % 16)

/-- Row `r` moved to the right by `r` columns. -/
def unshiftRows (b : Block) : Block := FixedBytes.ofFn 16 fun i => b.byteAt (13 * i % 16)

/-- Every column multiplied by the matrix whose first row is given, each further row of
which is the one above it moved to the right by one place. -/
def mixWith (w x y z : UInt8) (b : Block) : Block :=
  FixedBytes.ofFn 16 fun i =>
    let column := i / 4 * 4
    let entry := fun k => b.byteAt (column + (i + k) % 4)
    mul w (entry 0) ^^^ mul x (entry 1) ^^^ mul y (entry 2) ^^^ mul z (entry 3)

/-- The columns mixed. -/
def mixColumns (b : Block) : Block := mixWith 2 3 1 1 b

/-- The columns as they were before they were mixed. -/
def unmixColumns (b : Block) : Block := mixWith 14 11 13 9 b

/-! ## The key schedule -/

/-- The words of the key schedule, in order, after `rest` more of them. `words` holds
those found so far, last one first, and `constant` is the next round constant. -/
def extend (keyWords : Nat) : (rest : Nat) → (constant : UInt8) → (words : List Bytes) → List Bytes
  | 0, _, words => words.reverse
  | rest + 1, constant, words =>
    let index := words.length
    let last := words.headD []
    let substituted := fun word : Bytes => word.map (lookUp substitution)
    let starts := index % keyWords = 0
    let changed :=
      if starts then
        List.zipWith (· ^^^ ·) (substituted (last.drop 1 ++ last.take 1)) [constant, 0, 0, 0]
      else if 6 < keyWords ∧ index % keyWords = 4 then substituted last
      else last
    let next := List.zipWith (· ^^^ ·) (words.getD (keyWords - 1) []) changed
    extend keyWords rest (if starts then double constant else constant) (next :: words)

/-- The round keys of a key: ten, twelve or fourteen of them and one more. -/
def roundKeys (key : BlockKey) : List Block :=
  let keyWords := key.val.length / 4
  let count := 4 * (keyWords + 7)
  let words := extend keyWords (count - keyWords) 1 (chunks 4 key.val).reverse
  (chunks 16 words.flatten).map (FixedBytes.ofPrefix 16)

/-! ## Whole blocks -/

/-- The remaining rounds of enciphering: the last one does not mix the columns. -/
def encryptRounds : List Block → Block → Block
  | [], b => b
  | [key], b => (shiftRows (b.map (lookUp substitution))).xor key
  | key :: keys, b =>
    encryptRounds keys ((mixColumns (shiftRows (b.map (lookUp substitution)))).xor key)

/-- Enciphers one block. -/
def encryptBlock (key : BlockKey) (b : Block) : Block :=
  match roundKeys key with
  | [] => b
  | first :: keys => encryptRounds keys (b.xor first)

/-- Undoes the rounds of enciphering with these keys, in the order in which they are undone. -/
def decryptRounds : List Block → Block → Block
  | [], b => b
  | key :: keys, b =>
    decryptRounds keys ((unshiftRows (unmixColumns (b.xor key))).map (lookUp inverseSubstitution))

/-- Deciphers one block. -/
def decryptBlock (key : BlockKey) (b : Block) : Block :=
  match (roundKeys key).reverse with
  | [] => b
  | last :: keys =>
    let start := (unshiftRows (b.xor last)).map (lookUp inverseSubstitution)
    (decryptRounds keys.dropLast start).xor (keys.getLastD start)

end SealedEnvelope.Aes
