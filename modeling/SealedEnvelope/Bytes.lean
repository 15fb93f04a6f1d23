/-!
# `SealedEnvelope.Bytes`: byte strings and their fixed-width forms

A byte string is a list of bytes, so every codec of the library is a function on
lists and can be reasoned about by induction. `FixedBytes n` is a byte string of
exactly `n` bytes; keys, digests, signatures and cipher blocks are of such types,
and no later definition has to say what happens at another length.

The second half writes a natural number as bytes of a given width, in either
order, and reads it back.
-/

set_option autoImplicit false

namespace SealedEnvelope

/-- A byte string. -/
abbrev Bytes := List UInt8

/-- A byte string of exactly `n` bytes. -/
abbrev FixedBytes (n : Nat) := { bytes : Bytes // bytes.length = n }

namespace FixedBytes

/-- A byte string as one of `n` bytes, if that is its length. -/
def ofBytes? (n : Nat) (bytes : Bytes) : Option (FixedBytes n) :=
  if h : bytes.length = n then some ⟨bytes, h⟩ else none

/-- The first `n` bytes, filled up with zeros when there are fewer. -/
def ofPrefix (n : Nat) (bytes : Bytes) : FixedBytes n :=
  ⟨bytes.take n ++ List.replicate (n - bytes.length) 0, by
    simp only [List.length_append, List.length_take, List.length_replicate]
    omega⟩

/-- The bytes `f 0`, …, `f (n - 1)`. -/
def ofFn (n : Nat) (f : Nat → UInt8) : FixedBytes n :=
  ⟨(List.range n).map f, by simp⟩

/-- The byte at a position, and zero beyond the last one. -/
def byteAt {n : Nat} (b : FixedBytes n) (i : Nat) : UInt8 := b.val.getD i 0

/-- Every byte replaced by its image. -/
def map {n : Nat} (f : UInt8 → UInt8) (b : FixedBytes n) : FixedBytes n :=
  ⟨b.val.map f, by simp [b.property]⟩

/-- Bytewise exclusive or. -/
def xor {n : Nat} (a b : FixedBytes n) : FixedBytes n :=
  ⟨List.zipWith (· ^^^ ·) a.val b.val, by simp [a.property, b.property]⟩

theorem ofBytes?_eq_some_iff {n : Nat} {bytes : Bytes} {b : FixedBytes n} :
    ofBytes? n bytes = some b ↔ b.val = bytes := by
  unfold ofBytes?
  split
  · constructor
    · rintro h
      cases h
      rfl
    · rintro rfl
      rfl
  · next h =>
    constructor
    · intro h'
      cases h'
    · rintro rfl
      exact absurd b.property h

@[simp] theorem ofBytes?_val {n : Nat} (b : FixedBytes n) : ofBytes? n b.val = some b :=
  ofBytes?_eq_some_iff.2 rfl

theorem ofPrefix_val_append {n : Nat} (b : FixedBytes n) (rest : Bytes) :
    ofPrefix n (b.val ++ rest) = b := by
  apply Subtype.ext
  have h := b.property
  have hlen : n - (b.val ++ rest).length = 0 := by
    rw [List.length_append]
    omega
  simp only [ofPrefix, hlen, List.replicate_zero, List.append_nil]
  rw [List.take_append_of_le_length (by omega), List.take_of_length_le (by omega)]

end FixedBytes

/-- The byte string cut into pieces of `n` bytes each; the last one may be shorter. -/
def chunks (n : Nat) : Bytes → List Bytes
  | [] => []
  | b :: rest => (b :: rest.take (n - 1)) :: chunks n (rest.drop (n - 1))
termination_by bytes => bytes.length
decreasing_by simp only [List.length_drop, List.length_cons]; omega

/-! ## Numbers as bytes -/

/-- The `width` low-order bytes of a number, least significant first. -/
def littleEndian : (width : Nat) → Nat → Bytes
  | 0, _ => []
  | width + 1, n => UInt8.ofNat n :: littleEndian width (n / 256)

/-- The `width` low-order bytes of a number, most significant first. -/
def bigEndian (width n : Nat) : Bytes := (littleEndian width n).reverse

/-- The number whose bytes, least significant first, are these. -/
def ofLittleEndian : Bytes → Nat
  | [] => 0
  | b :: rest => b.toNat + 256 * ofLittleEndian rest

/-- The number whose bytes, most significant first, are these. -/
def ofBigEndian (bytes : Bytes) : Nat :=
  bytes.foldl (fun n b => 256 * n + b.toNat) 0

@[simp] theorem length_littleEndian (width n : Nat) : (littleEndian width n).length = width := by
  induction width generalizing n with
  | zero => rfl
  | succ width ih => simp [littleEndian, ih]

@[simp] theorem length_bigEndian (width n : Nat) : (bigEndian width n).length = width := by
  simp [bigEndian]

theorem ofLittleEndian_littleEndian (width n : Nat) :
    ofLittleEndian (littleEndian width n) = n % Nat.pow 256 width := by
  rw [Nat.pow_eq]
  induction width generalizing n with
  | zero => simp [littleEndian, ofLittleEndian, Nat.mod_one]
  | succ width ih =>
    simp only [littleEndian, ofLittleEndian, ih, UInt8.toNat_ofNat']
    have hpow : 256 ^ (width + 1) = 256 * 256 ^ width := Nat.pow_succ'
    rw [hpow]
    exact (Nat.mod_mul).symm

theorem littleEndian_ofLittleEndian (bytes : Bytes) :
    littleEndian bytes.length (ofLittleEndian bytes) = bytes := by
  induction bytes with
  | nil => rfl
  | cons b rest ih =>
    have hb := b.toNat_lt_size
    simp only [UInt8.size] at hb
    have hdiv : (b.toNat + 256 * ofLittleEndian rest) / 256 = ofLittleEndian rest := by omega
    have hhead : UInt8.ofNat (b.toNat + 256 * ofLittleEndian rest) = b := by
      apply UInt8.toNat_inj.1
      rw [UInt8.toNat_ofNat']
      omega
    simp only [List.length_cons, ofLittleEndian, littleEndian, hdiv, hhead, ih]

theorem ofBigEndian_eq (bytes : Bytes) : ofBigEndian bytes = ofLittleEndian bytes.reverse := by
  suffices h : ∀ (l : Bytes),
      l.reverse.foldl (fun n b => 256 * n + b.toNat) 0 = ofLittleEndian l by
    have := h bytes.reverse
    rwa [List.reverse_reverse] at this
  intro l
  induction l with
  | nil => rfl
  | cons b rest ih =>
    simp only [List.reverse_cons, List.foldl_append, List.foldl_cons, List.foldl_nil, ih,
      ofLittleEndian]
    omega

theorem ofBigEndian_bigEndian (width n : Nat) :
    ofBigEndian (bigEndian width n) = n % Nat.pow 256 width := by
  rw [ofBigEndian_eq, bigEndian, List.reverse_reverse, ofLittleEndian_littleEndian]

theorem bigEndian_ofBigEndian (bytes : Bytes) :
    bigEndian bytes.length (ofBigEndian bytes) = bytes := by
  have h := littleEndian_ofLittleEndian bytes.reverse
  rw [List.length_reverse] at h
  rw [ofBigEndian_eq, bigEndian, h, List.reverse_reverse]

end SealedEnvelope
