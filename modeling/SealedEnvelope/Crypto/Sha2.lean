import SealedEnvelope.Bytes

/-!
# `SealedEnvelope.Crypto.Sha2`: the hash functions SHA-256 and SHA-512

The two functions are one construction over words of 32 and of 64 bits. A message is
padded to whole blocks of sixteen words, and each block changes a state of eight words
through one round for every constant. `Parameters` holds what the two do not share.

The message schedule is kept as a window of sixteen words: each round uses up the first
and puts the next one at the end.
-/

set_option autoImplicit false

namespace SealedEnvelope.Sha2

/-- Three rotations, or two rotations and a shift, whose results are added without carry. -/
structure Mixing where
  first : Nat
  second : Nat
  third : Nat

/-- The eight words of the state. -/
structure State (w : Nat) where
  a : BitVec w
  b : BitVec w
  c : BitVec w
  d : BitVec w
  e : BitVec w
  f : BitVec w
  g : BitVec w
  h : BitVec w

/-- What sets apart the functions of the family. -/
structure Parameters (w : Nat) where
  /-- The mixing of the first word in a round. -/
  upper : Mixing
  /-- The mixing of the fifth word in a round. -/
  lower : Mixing
  /-- The mixing of the word fifteen places back in the schedule. -/
  early : Mixing
  /-- The mixing of the word two places back in the schedule. -/
  late : Mixing
  /-- The constant of each round. -/
  constants : List (BitVec w)
  /-- The state before the first block. -/
  initial : State w

variable {w : Nat}

/-- Mixing by three rotations. -/
def Mixing.rotations (m : Mixing) (x : BitVec w) : BitVec w :=
  x.rotateRight m.first ^^^ x.rotateRight m.second ^^^ x.rotateRight m.third

/-- Mixing by two rotations and a shift. -/
def Mixing.shifting (m : Mixing) (x : BitVec w) : BitVec w :=
  x.rotateRight m.first ^^^ x.rotateRight m.second ^^^ (x >>> m.third)

/-- The state after one round with a constant and a word of the schedule. -/
def State.round (p : Parameters w) (s : State w) (constant word : BitVec w) : State w :=
  let choice := (s.e &&& s.f) ^^^ (~~~s.e &&& s.g)
  let majority := (s.a &&& s.b) ^^^ (s.a &&& s.c) ^^^ (s.b &&& s.c)
  let first := s.h + p.lower.rotations s.e + choice + constant + word
  let second := p.upper.rotations s.a + majority
  { a := first + second, b := s.a, c := s.b, d := s.c, e := s.d + first, f := s.e, g := s.f, h := s.g }

/-- The two states added word by word. -/
def State.add (s t : State w) : State w :=
  { a := s.a + t.a, b := s.b + t.b, c := s.c + t.c, d := s.d + t.d,
    e := s.e + t.e, f := s.f + t.f, g := s.g + t.g, h := s.h + t.h }

/-- The window of the schedule one round later. -/
def slide (p : Parameters w) (window : List (BitVec w)) : List (BitVec w) :=
  let word := fun i => window.getD i 0
  window.tail ++ [p.late.shifting (word 14) + word 9 + p.early.shifting (word 1) + word 0]

/-- The state after one block, given as sixteen words. -/
def State.absorb (p : Parameters w) (s : State w) (block : List (BitVec w)) : State w :=
  let rounds := p.constants.foldl
    (fun (t : State w × List (BitVec w)) k => (t.1.round p k (t.2.headD 0), slide p t.2)) (s, block)
  s.add rounds.1

/-- The message followed by a one bit, zeros, and its length in bits as two words. -/
def pad (w : Nat) (message : Bytes) : Bytes :=
  let filled := message.length + 1 + w / 4
  message ++ [0x80] ++ List.replicate ((2 * w - filled % (2 * w)) % (2 * w)) 0
    ++ bigEndian (w / 4) (8 * message.length)

/-- The words of a block. -/
def blockWords (w : Nat) (block : Bytes) : List (BitVec w) :=
  (chunks (w / 8) block).map fun bytes => BitVec.ofNat w (ofBigEndian bytes)

/-- The state after a whole message. -/
def hashState (p : Parameters w) (message : Bytes) : State w :=
  (chunks (2 * w) (pad w message)).foldl (fun s block => s.absorb p (blockWords w block)) p.initial

/-- The bytes of a state. -/
def State.bytes (s : State w) : Bytes :=
  [s.a, s.b, s.c, s.d, s.e, s.f, s.g, s.h].flatMap fun word => bigEndian (w / 8) word.toNat

theorem length_bytes (s : State w) : s.bytes.length = 8 * (w / 8) := by
  simp only [State.bytes, List.flatMap_cons, List.flatMap_nil, List.length_append,
    length_bigEndian, List.length_nil]
  omega

/-! ## The two members in use -/

/-- The parameters of SHA-256. -/
def short : Parameters 32 where
  upper := ⟨2, 13, 22⟩
  lower := ⟨6, 11, 25⟩
  early := ⟨7, 18, 3⟩
  late := ⟨17, 19, 10⟩
  constants := [
    0x428a2f98, 0x71374491, 0xb5c0fbcf, 0xe9b5dba5, 0x3956c25b, 0x59f111f1,
    0x923f82a4, 0xab1c5ed5, 0xd807aa98, 0x12835b01, 0x243185be, 0x550c7dc3,
    0x72be5d74, 0x80deb1fe, 0x9bdc06a7, 0xc19bf174, 0xe49b69c1, 0xefbe4786,
    0x0fc19dc6, 0x240ca1cc, 0x2de92c6f, 0x4a7484aa, 0x5cb0a9dc, 0x76f988da,
    0x983e5152, 0xa831c66d, 0xb00327c8, 0xbf597fc7, 0xc6e00bf3, 0xd5a79147,
    0x06ca6351, 0x14292967, 0x27b70a85, 0x2e1b2138, 0x4d2c6dfc, 0x53380d13,
    0x650a7354, 0x766a0abb, 0x81c2c92e, 0x92722c85, 0xa2bfe8a1, 0xa81a664b,
    0xc24b8b70, 0xc76c51a3, 0xd192e819, 0xd6990624, 0xf40e3585, 0x106aa070,
    0x19a4c116, 0x1e376c08, 0x2748774c, 0x34b0bcb5, 0x391c0cb3, 0x4ed8aa4a,
    0x5b9cca4f, 0x682e6ff3, 0x748f82ee, 0x78a5636f, 0x84c87814, 0x8cc70208,
    0x90befffa, 0xa4506ceb, 0xbef9a3f7, 0xc67178f2]
  initial := ⟨0x6a09e667, 0xbb67ae85, 0x3c6ef372, 0xa54ff53a,
    0x510e527f, 0x9b05688c, 0x1f83d9ab, 0x5be0cd19⟩

/-- The parameters of SHA-512. -/
def long : Parameters 64 where
  upper := ⟨28, 34, 39⟩
  lower := ⟨14, 18, 41⟩
  early := ⟨1, 8, 7⟩
  late := ⟨19, 61, 6⟩
  constants := [
    0x428a2f98d728ae22, 0x7137449123ef65cd, 0xb5c0fbcfec4d3b2f, 0xe9b5dba58189dbbc,
    0x3956c25bf348b538, 0x59f111f1b605d019, 0x923f82a4af194f9b, 0xab1c5ed5da6d8118,
    0xd807aa98a3030242, 0x12835b0145706fbe, 0x243185be4ee4b28c, 0x550c7dc3d5ffb4e2,
    0x72be5d74f27b896f, 0x80deb1fe3b1696b1, 0x9bdc06a725c71235, 0xc19bf174cf692694,
    0xe49b69c19ef14ad2, 0xefbe4786384f25e3, 0x0fc19dc68b8cd5b5, 0x240ca1cc77ac9c65,
    0x2de92c6f592b0275, 0x4a7484aa6ea6e483, 0x5cb0a9dcbd41fbd4, 0x76f988da831153b5,
    0x983e5152ee66dfab, 0xa831c66d2db43210, 0xb00327c898fb213f, 0xbf597fc7beef0ee4,
    0xc6e00bf33da88fc2, 0xd5a79147930aa725, 0x06ca6351e003826f, 0x142929670a0e6e70,
    0x27b70a8546d22ffc, 0x2e1b21385c26c926, 0x4d2c6dfc5ac42aed, 0x53380d139d95b3df,
    0x650a73548baf63de, 0x766a0abb3c77b2a8, 0x81c2c92e47edaee6, 0x92722c851482353b,
    0xa2bfe8a14cf10364, 0xa81a664bbc423001, 0xc24b8b70d0f89791, 0xc76c51a30654be30,
    0xd192e819d6ef5218, 0xd69906245565a910, 0xf40e35855771202a, 0x106aa07032bbd1b8,
    0x19a4c116b8d2d0c8, 0x1e376c085141ab53, 0x2748774cdf8eeb99, 0x34b0bcb5e19b48a8,
    0x391c0cb3c5c95a63, 0x4ed8aa4ae3418acb, 0x5b9cca4f7763e373, 0x682e6ff3d6b2b8a3,
    0x748f82ee5defb2fc, 0x78a5636f43172f60, 0x84c87814a1f0ab72, 0x8cc702081a6439ec,
    0x90befffa23631e28, 0xa4506cebde82bde9, 0xbef9a3f7b2c67915, 0xc67178f2e372532b,
    0xca273eceea26619c, 0xd186b8c721c0c207, 0xeada7dd6cde0eb1e, 0xf57d4f7fee6ed178,
    0x06f067aa72176fba, 0x0a637dc5a2c898a6, 0x113f9804bef90dae, 0x1b710b35131c471b,
    0x28db77f523047d84, 0x32caab7b40c72493, 0x3c9ebe0a15c9bebc, 0x431d67c49c100d4c,
    0x4cc5d4becb3e42b6, 0x597f299cfc657e2a, 0x5fcb6fab3ad6faec, 0x6c44198c4a475817]
  initial := ⟨0x6a09e667f3bcc908, 0xbb67ae8584caa73b, 0x3c6ef372fe94f82b, 0xa54ff53a5f1d36f1,
    0x510e527fade682d1, 0x9b05688c2b3e6c1f, 0x1f83d9abfb41bd6b, 0x5be0cd19137e2179⟩

/-- The SHA-256 digest of a message. -/
def sha256 (message : Bytes) : FixedBytes 32 :=
  ⟨(hashState short message).bytes, length_bytes _⟩

/-- The SHA-512 digest of a message. -/
def sha512 (message : Bytes) : FixedBytes 64 :=
  ⟨(hashState long message).bytes, length_bytes _⟩

end SealedEnvelope.Sha2
