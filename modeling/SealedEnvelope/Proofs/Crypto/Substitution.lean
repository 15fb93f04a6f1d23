import SealedEnvelope.Crypto.Aes
import SealedEnvelope.Proofs.Bytes

/-!
# `SealedEnvelope.Proofs.Crypto.Substitution`: the arithmetic of AES bytes undone

The substitution box sends different bytes to different bytes, and its table and the
table of its inverse undo each other:

* `substituteByte_inj`: the box is injective;
* `lookUp_lookUp_substitution`: what is looked up in the one table is found again in the
  other;
* `mul_xor`: a product distributes over sums, so the columns of a block can be taken one
  byte at a time.

`Aes.Number` says the same arithmetic over natural numbers, which can be checked for all
256 bytes at once.
-/

set_option autoImplicit false

namespace SealedEnvelope.Aes

/-! ## The arithmetic over numbers -/

namespace Number

/-- The polynomial multiplied by `x`. -/
def double (a : Nat) : Nat :=
  Nat.xor (Nat.mod (Nat.mul 2 a) 256) (Nat.mul 0x1B (Nat.div a 128))

/-- The product of two polynomials, where `bits` bits of the second are looked at. -/
def mulBits : (bits : Nat) → Nat → Nat → Nat
  | 0, _, _ => 0
  | bits + 1, a, b =>
    Nat.xor (Nat.mul (Nat.mod b 2) a) (mulBits bits (double a) (Nat.div b 2))

/-- The product of two polynomials. -/
def mul (a b : Nat) : Nat := mulBits 8 a b

/-- The power of 254 of a polynomial. -/
def inverse (a : Nat) : Nat :=
  let a2 := mul a a
  let a4 := mul a2 a2
  let a8 := mul a4 a4
  let a16 := mul a8 a8
  let a32 := mul a16 a16
  let a64 := mul a32 a32
  let a128 := mul a64 a64
  mul (mul (mul a2 a4) (mul a8 a16)) (mul (mul a32 a64) a128)

/-- The eight bits moved up by `n` places, where those that leave come back below. -/
def rotate (a n : Nat) : Nat :=
  Nat.add (Nat.mod (Nat.mul a (Nat.pow 2 n)) 256) (Nat.div a (Nat.pow 2 (8 - n)))

/-- The image of a byte under the substitution box. -/
def substitute (a : Nat) : Nat :=
  let b := inverse a
  Nat.xor (Nat.xor (Nat.xor (Nat.xor (Nat.xor b (rotate b 1)) (rotate b 2)) (rotate b 3))
    (rotate b 4)) 0x63

/-- The byte that the substitution box sends to this one: the affine map is undone by another
one, and the power of 254 by itself. -/
def unsubstitute (a : Nat) : Nat :=
  inverse (Nat.xor (Nat.xor (Nat.xor (rotate a 1) (rotate a 3)) (rotate a 6)) 0x05)

theorem unsubstitute_substitute : ∀ i : Fin 256, unsubstitute (substitute i) = i := by
  decide +kernel

/-- The first row of the inverse matrix against each column of the matrix. -/
theorem mul_columns : ∀ i : Fin 256,
    Nat.xor (Nat.xor (Nat.xor (mul 14 (mul 2 i)) (mul 11 (mul 1 i))) (mul 13 (mul 1 i)))
        (mul 9 (mul 3 i)) = i
      ∧ Nat.xor (Nat.xor (Nat.xor (mul 14 (mul 3 i)) (mul 11 (mul 2 i))) (mul 13 (mul 1 i)))
        (mul 9 (mul 1 i)) = 0
      ∧ Nat.xor (Nat.xor (Nat.xor (mul 14 (mul 1 i)) (mul 11 (mul 3 i))) (mul 13 (mul 2 i)))
        (mul 9 (mul 1 i)) = 0
      ∧ Nat.xor (Nat.xor (Nat.xor (mul 14 (mul 1 i)) (mul 11 (mul 1 i))) (mul 13 (mul 3 i)))
        (mul 9 (mul 2 i)) = 0 := by
  decide +kernel

end Number

/-! ## The same numbers -/

theorem toNat_double : ∀ a : UInt8, (double a).toNat = Number.double a.toNat := by
  apply forall_byte
  decide +kernel

theorem toNat_mulBits (bits : Nat) (a b : UInt8) :
    (mulBits bits a b).toNat = Number.mulBits bits a.toNat b.toNat := by
  induction bits generalizing a b with
  | zero => rfl
  | succ bits ih =>
    have hbit : ∀ b : UInt8, b &&& 1 = if b.toNat % 2 = 0 then 0 else 1 := by
      apply forall_byte
      decide +kernel
    have hhalf : (b >>> 1).toNat = b.toNat / 2 := by
      rw [UInt8.toNat_shiftRight]
      exact Nat.shiftRight_eq_div_pow b.toNat 1
    have hterm : (if b &&& 1 = 0 then 0 else a : UInt8).toNat = b.toNat % 2 * a.toNat := by
      rw [hbit b]
      cases Nat.mod_two_eq_zero_or_one b.toNat with
      | inl h => simp [h]
      | inr h => simp [h]
    show (_ ^^^ _ : UInt8).toNat = _
    rw [UInt8.toNat_xor, hterm, ih, toNat_double, hhalf]
    rfl

theorem toNat_mul (a b : UInt8) : (mul a b).toNat = Number.mul a.toNat b.toNat :=
  toNat_mulBits 8 a b

theorem toNat_inverse (a : UInt8) : (inverse a).toNat = Number.inverse a.toNat := by
  simp only [inverse, Number.inverse, toNat_mul]

theorem toNat_rotate (n : Fin 8) (hn : n ≠ 0) (a : UInt8) :
    (rotate a (UInt8.ofNat n)).toNat = Number.rotate a.toNat n := by
  have key : ∀ n : Fin 8, n ≠ 0 → ∀ i : Fin 256,
      (rotate (UInt8.ofFin i) (UInt8.ofNat n)).toNat = Number.rotate (UInt8.ofFin i).toNat n := by
    decide +kernel
  exact key n hn a.toFin

theorem toNat_substituteByte (a : UInt8) :
    (substituteByte a).toNat = Number.substitute a.toNat := by
  have h1 : ∀ b, (rotate b 1).toNat = Number.rotate b.toNat 1 := toNat_rotate 1 (by decide)
  have h2 : ∀ b, (rotate b 2).toNat = Number.rotate b.toNat 2 := toNat_rotate 2 (by decide)
  have h3 : ∀ b, (rotate b 3).toNat = Number.rotate b.toNat 3 := toNat_rotate 3 (by decide)
  have h4 : ∀ b, (rotate b 4).toNat = Number.rotate b.toNat 4 := toNat_rotate 4 (by decide)
  simp only [substituteByte, UInt8.toNat_xor, h1, h2, h3, h4, toNat_inverse]
  rfl

/-- The substitution box sends different bytes to different bytes. -/
theorem substituteByte_inj {a b : UInt8} (h : substituteByte a = substituteByte b) : a = b := by
  -- A left inverse, checked for all numbers below 256, spares comparing pairs of bytes.
  have key : ∀ c : UInt8, Number.unsubstitute (substituteByte c).toNat = c.toNat := by
    intro c
    rw [toNat_substituteByte]
    exact Number.unsubstitute_substitute c.toFin
  apply UInt8.toNat_inj.1
  rw [← key a, ← key b, h]

/-! ## The two tables -/

theorem lookUp_substitution (a : UInt8) : lookUp substitution a = substituteByte a := by
  have hsize : a.toNat < substitution.size := by
    rw [substitution, Array.size_ofFn]
    exact a.toNat_lt
  rw [lookUp, Array.getD_eq_getD_getElem?, Array.getElem?_eq_getElem hsize, Option.getD_some]
  simp only [substitution, Array.getElem_ofFn, UInt8.ofNat_toNat]

/-- The table with the inverse of the box filled in for the given numbers. -/
def fill (numbers : List Nat) (table : Array UInt8) : Array UInt8 :=
  numbers.foldl
    (fun table i => table.setIfInBounds (substituteByte (UInt8.ofNat i)).toNat (UInt8.ofNat i))
    table

/-- A place that no number fills keeps what it holds. -/
theorem getD_fill_of_ne {numbers : List Nat} (table : Array UInt8) {place : Nat}
    (h : ∀ i ∈ numbers, (substituteByte (UInt8.ofNat i)).toNat ≠ place) :
    (fill numbers table).getD place 0 = table.getD place 0 := by
  induction numbers generalizing table with
  | nil => rfl
  | cons i numbers ih =>
    have hrest := ih (table.setIfInBounds (substituteByte (UInt8.ofNat i)).toNat (UInt8.ofNat i))
      fun j hj => h j (List.mem_cons_of_mem i hj)
    have hi := h i List.mem_cons_self
    show (fill numbers (table.setIfInBounds _ _)).getD place 0 = _
    rw [hrest, Array.getD_eq_getD_getElem?, Array.getElem?_setIfInBounds_ne hi,
      ← Array.getD_eq_getD_getElem?]

/-- The place of a number holds it once it is filled. -/
theorem getD_fill_of_mem {numbers : List Nat} {table : Array UInt8} {i : Nat}
    (hsize : table.size = 256) (hbyte : ∀ i ∈ numbers, i < 256) (hnodup : numbers.Nodup)
    (hi : i ∈ numbers) :
    (fill numbers table).getD (substituteByte (UInt8.ofNat i)).toNat 0 = UInt8.ofNat i := by
  induction numbers generalizing table with
  | nil => cases hi
  | cons j numbers ih =>
    have hbyte' : ∀ i ∈ numbers, i < 256 := fun k hk => hbyte k (List.mem_cons_of_mem j hk)
    obtain ⟨hj, hnodup'⟩ := List.nodup_cons.1 hnodup
    cases List.mem_cons.1 hi with
    | inr hi =>
      exact ih (by rw [Array.size_setIfInBounds, hsize]) hbyte' hnodup' hi
    | inl heq =>
      subst heq
      -- The box is injective, so that no later number is put into the same place.
      have hother : ∀ k ∈ numbers, (substituteByte (UInt8.ofNat k)).toNat
          ≠ (substituteByte (UInt8.ofNat i)).toNat := by
        intro k hk heq
        have hsame := congrArg UInt8.toNat (substituteByte_inj (UInt8.toNat_inj.1 heq))
        rw [UInt8.toNat_ofNat', UInt8.toNat_ofNat'] at hsame
        have hk' := hbyte' k hk
        have hi' := hbyte i List.mem_cons_self
        have hik : k = i := by omega
        exact hj (hik ▸ hk)
      have hplace : (substituteByte (UInt8.ofNat i)).toNat < table.size := by
        rw [hsize]
        exact (substituteByte (UInt8.ofNat i)).toNat_lt
      show (fill numbers (table.setIfInBounds _ _)).getD _ 0 = _
      rw [getD_fill_of_ne _ hother, Array.getD_eq_getD_getElem?,
        Array.getElem?_setIfInBounds_self_of_lt hplace, Option.getD_some]

/-- What is looked up in the table of the box is found again in the table of its inverse. -/
theorem lookUp_lookUp_substitution (a : UInt8) :
    lookUp inverseSubstitution (lookUp substitution a) = a := by
  have hsize : (Array.replicate 256 (0 : UInt8)).size = 256 := Array.size_replicate
  have hfill := getD_fill_of_mem hsize (fun i hi => List.mem_range.1 hi) List.nodup_range
    (List.mem_range.2 a.toNat_lt)
  rw [UInt8.ofNat_toNat] at hfill
  rw [lookUp_substitution]
  exact hfill

/-! ## Products -/

theorem mulBits_xor (bits : Nat) (a x y : UInt8) :
    mulBits bits a (x ^^^ y) = mulBits bits a x ^^^ mulBits bits a y := by
  induction bits generalizing a x y with
  | zero => exact UInt8.xor_zero.symm
  | succ bits ih =>
    have hbit : ∀ x : UInt8, x &&& 1 = 0 ∨ x &&& 1 = 1 := by
      apply forall_byte
      decide +kernel
    have hand : (x ^^^ y) &&& 1 = (x &&& 1) ^^^ (y &&& 1) := by
      apply UInt8.toNat_inj.1
      simp only [UInt8.toNat_and, UInt8.toNat_xor]
      exact Nat.and_xor_distrib_right
    have hterm : (if (x ^^^ y) &&& 1 = 0 then 0 else a)
        = (if x &&& 1 = 0 then 0 else a) ^^^ (if y &&& 1 = 0 then 0 else a) := by
      rw [hand]
      cases hbit x with
      | inl hx => cases hbit y with
        | inl hy => simp [hx, hy]
        | inr hy => simp [hx, hy]
      | inr hx => cases hbit y with
        | inl hy => simp [hx, hy]
        | inr hy => simp [hx, hy]
    simp only [mulBits]
    rw [hterm, UInt8.shiftRight_xor, ih]
    ac_rfl

/-- A product distributes over a sum. -/
theorem mul_xor (a x y : UInt8) : mul a (x ^^^ y) = mul a x ^^^ mul a y := mulBits_xor 8 a x y

/-- A column that is multiplied by the matrix and then by its inverse has its first byte back. -/
theorem unmix_mix (w x y z : UInt8) :
    mul 14 (mul 2 w ^^^ mul 3 x ^^^ mul 1 y ^^^ mul 1 z)
      ^^^ mul 11 (mul 2 x ^^^ mul 3 y ^^^ mul 1 z ^^^ mul 1 w)
      ^^^ mul 13 (mul 2 y ^^^ mul 3 z ^^^ mul 1 w ^^^ mul 1 x)
      ^^^ mul 9 (mul 2 z ^^^ mul 3 w ^^^ mul 1 x ^^^ mul 1 y) = w := by
  -- Each byte of the column meets one column of the product, which was checked for all bytes.
  have hw : mul 14 (mul 2 w) ^^^ mul 11 (mul 1 w) ^^^ mul 13 (mul 1 w) ^^^ mul 9 (mul 3 w)
      = w := by
    apply UInt8.toNat_inj.1
    simp only [UInt8.toNat_xor, toNat_mul]
    exact (Number.mul_columns w.toFin).1
  have hx : mul 14 (mul 3 x) ^^^ mul 11 (mul 2 x) ^^^ mul 13 (mul 1 x) ^^^ mul 9 (mul 1 x)
      = 0 := by
    apply UInt8.toNat_inj.1
    simp only [UInt8.toNat_xor, toNat_mul]
    exact (Number.mul_columns x.toFin).2.1
  have hy : mul 14 (mul 1 y) ^^^ mul 11 (mul 3 y) ^^^ mul 13 (mul 2 y) ^^^ mul 9 (mul 1 y)
      = 0 := by
    apply UInt8.toNat_inj.1
    simp only [UInt8.toNat_xor, toNat_mul]
    exact (Number.mul_columns y.toFin).2.2.1
  have hz : mul 14 (mul 1 z) ^^^ mul 11 (mul 1 z) ^^^ mul 13 (mul 3 z) ^^^ mul 9 (mul 2 z)
      = 0 := by
    apply UInt8.toNat_inj.1
    simp only [UInt8.toNat_xor, toNat_mul]
    exact (Number.mul_columns z.toFin).2.2.2
  calc
    _ = (mul 14 (mul 2 w) ^^^ mul 11 (mul 1 w) ^^^ mul 13 (mul 1 w) ^^^ mul 9 (mul 3 w))
        ^^^ (mul 14 (mul 3 x) ^^^ mul 11 (mul 2 x) ^^^ mul 13 (mul 1 x) ^^^ mul 9 (mul 1 x))
        ^^^ (mul 14 (mul 1 y) ^^^ mul 11 (mul 3 y) ^^^ mul 13 (mul 2 y) ^^^ mul 9 (mul 1 y))
        ^^^ (mul 14 (mul 1 z) ^^^ mul 11 (mul 1 z) ^^^ mul 13 (mul 3 z) ^^^ mul 9 (mul 2 z)) := by
      simp only [mul_xor]
      ac_rfl
    _ = w := by rw [hw, hx, hy, hz, UInt8.xor_zero, UInt8.xor_zero, UInt8.xor_zero]

end SealedEnvelope.Aes
