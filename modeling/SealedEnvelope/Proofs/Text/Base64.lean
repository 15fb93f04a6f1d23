import SealedEnvelope.Proofs.Bytes
import SealedEnvelope.Text.Base64

/-!
# `SealedEnvelope.Proofs.Text.Base64`: base64 text is read back

Three bytes are four digits, and the reader looks for padding in the last four only. So the
last group has to be told from the others: it is the one with nothing behind it.

Main statements:

* `decode?_encode`: every byte string is read back from its text;
* `decode?_eq_some_iff`: and from no other text, because the bits that padding leaves over have
  to be zero;
* `length_encode`: how long the text is.
-/

set_option autoImplicit false

namespace SealedEnvelope.Base64

/-- A digit is read as its number, and is no padding. -/
theorem digitValue?_digit : ∀ n < 64, digitValue? (digit n) = some n ∧ digit n ≠ padding := by
  decide

/-- A number whose lowest eight bits are a byte is cut to it. -/
theorem ofNat_eq_of_mod_eq {n : Nat} {a : UInt8} (h : n % 256 = a.toNat) : UInt8.ofNat n = a := by
  refine UInt8.toNat_inj.1 ?_
  rw [UInt8.toNat_ofNat']
  exact h

/-- The digits of three bytes are read as the bytes. -/
theorem decodeGroup_digits (a b c : UInt8) :
    decodeGroup (digit ((256 * (256 * a.toNat + b.toNat) + c.toNat) / 262144))
        (digit ((256 * (256 * a.toNat + b.toNat) + c.toNat) / 4096 % 64))
        (digit ((256 * (256 * a.toNat + b.toNat) + c.toNat) / 64 % 64))
        (digit ((256 * (256 * a.toNat + b.toNat) + c.toNat) % 64))
      = some [a, b, c] := by
  have ha := a.toNat_lt
  have hb := b.toNat_lt
  have hc := c.toNat_lt
  -- The bytes together are a number of 24 bits, of which each digit has six.
  generalize hn : 256 * (256 * a.toNat + b.toNat) + c.toNat = n
  obtain ⟨hw, -⟩ := digitValue?_digit (n / 262144) (by omega)
  obtain ⟨hx, -⟩ := digitValue?_digit (n / 4096 % 64) (Nat.mod_lt _ (by decide))
  obtain ⟨hy, -⟩ := digitValue?_digit (n / 64 % 64) (Nat.mod_lt _ (by decide))
  obtain ⟨hz, -⟩ := digitValue?_digit (n % 64) (Nat.mod_lt _ (by decide))
  have hfirst : UInt8.ofNat (4 * (n / 262144) + n / 4096 % 64 / 16) = a :=
    ofNat_eq_of_mod_eq (by omega)
  have hsecond : UInt8.ofNat (16 * (n / 4096 % 64) + n / 64 % 64 / 4) = b :=
    ofNat_eq_of_mod_eq (by omega)
  have hthird : UInt8.ofNat (64 * (n / 64 % 64) + n % 64) = c :=
    ofNat_eq_of_mod_eq (by omega)
  simp only [decodeGroup, hw, hx, hy, hz, Option.bind_eq_bind, Option.bind_some, hfirst, hsecond,
    hthird]

/-- Without padding the last group is read as any other. -/
theorem decodeLast_of_ne_padding {c d : UInt8} (hc : c ≠ padding) (hd : d ≠ padding) (a b : UInt8) :
    decodeLast a b c d = decodeGroup a b c d := by
  simp only [decodeLast, decodeGroup, if_neg hc, if_neg hd]

/-- What is left at the end is read back: one byte, with two signs of padding, -/
theorem decodeLast_one (a : UInt8) :
    decodeLast (digit (a.toNat / 4)) (digit (a.toNat % 4 * 16)) padding padding = some [a] := by
  have ha := a.toNat_lt
  obtain ⟨hx, -⟩ := digitValue?_digit (a.toNat / 4) (by omega)
  obtain ⟨hy, -⟩ := digitValue?_digit (a.toNat % 4 * 16) (by omega)
  have hbits : a.toNat % 4 * 16 % 16 = 0 := Nat.mul_mod_left _ _
  have hbyte : UInt8.ofNat (4 * (a.toNat / 4) + a.toNat % 4 * 16 / 16) = a :=
    ofNat_eq_of_mod_eq (by omega)
  simp only [decodeLast, hx, hy, hbits, Option.bind_eq_bind, Option.bind_some, and_self, if_true,
    hbyte]

/-- or two bytes, with one. -/
theorem decodeLast_two (a b : UInt8) :
    decodeLast (digit ((256 * a.toNat + b.toNat) / 1024)) (digit ((256 * a.toNat + b.toNat) / 16 % 64))
        (digit ((256 * a.toNat + b.toNat) % 16 * 4)) padding
      = some [a, b] := by
  have ha := a.toNat_lt
  have hb := b.toNat_lt
  generalize hn : 256 * a.toNat + b.toNat = n
  obtain ⟨hx, -⟩ := digitValue?_digit (n / 1024) (by omega)
  obtain ⟨hy, -⟩ := digitValue?_digit (n / 16 % 64) (Nat.mod_lt _ (by decide))
  obtain ⟨hz, hne⟩ := digitValue?_digit (n % 16 * 4) (by omega)
  have hbits : n % 16 * 4 % 4 = 0 := Nat.mul_mod_left _ _
  have hfirst : UInt8.ofNat (4 * (n / 1024) + n / 16 % 64 / 16) = a :=
    ofNat_eq_of_mod_eq (by omega)
  have hsecond : UInt8.ofNat (16 * (n / 16 % 64) + n % 16 * 4 / 4) = b :=
    ofNat_eq_of_mod_eq (by omega)
  simp only [decodeLast, hx, hy, hz, if_neg hne, hbits, Option.bind_eq_bind, Option.bind_some,
    if_true, hfirst, hsecond]

/-- The text of some bytes is not empty. -/
theorem encode_ne_nil {bytes : Bytes} (h : bytes ≠ []) : encode bytes ≠ [] := by
  match bytes with
  | [] => exact absurd rfl h
  | [a] => exact List.cons_ne_nil _ _
  | [a, b] => exact List.cons_ne_nil _ _
  | a :: b :: c :: rest => exact List.cons_ne_nil _ _

/-- Every byte string is read back from its text. -/
theorem decode?_encode (bytes : Bytes) : decode? (encode bytes) = some bytes := by
  fun_induction encode bytes with
  | case1 => rfl
  | case2 a n => exact decodeLast_one a
  | case3 a b n => exact decodeLast_two a b
  | case4 a b c rest n ih =>
    have hgroup := decodeGroup_digits a b c
    cases rest with
    | nil =>
      obtain ⟨-, hy⟩ := digitValue?_digit (n / 64 % 64) (Nat.mod_lt _ (by decide))
      obtain ⟨-, hz⟩ := digitValue?_digit (n % 64) (Nat.mod_lt _ (by decide))
      exact (decodeLast_of_ne_padding hy hz _ _).trans hgroup
    | cons d rest =>
      have hmore : encode (d :: rest) ≠ [] := encode_ne_nil (List.cons_ne_nil d rest)
      rw [decode?]
      · rw [hgroup, ih]
        rfl
      · exact hmore

/-! ## Only this text is read -/

/-- What is read as a number is the digit of this number. -/
theorem digit_of_digitValue? {b : UInt8} {n : Nat} (h : digitValue? b = some n) :
    n < 64 ∧ b = digit n := by
  have key : ∀ b : UInt8, ∀ n ∈ digitValue? b, n < 64 ∧ b = digit n := by
    apply forall_byte
    decide +kernel
  exact key b n h

/-- Four digits that are read as a group are the text of its three bytes, which goes on with
the text of what follows them. -/
theorem encode_of_decodeGroup {a b c d : UInt8} {group : Bytes}
    (h : decodeGroup a b c d = some group) (rest : Bytes) :
    encode (group ++ rest) = a :: b :: c :: d :: encode rest := by
  simp only [decodeGroup, Option.bind_eq_bind, Option.bind_eq_some_iff, Option.some.injEq] at h
  obtain ⟨x, hx, y, hy, z, hz, w, hw, rfl⟩ := h
  obtain ⟨hx64, rfl⟩ := digit_of_digitValue? hx
  obtain ⟨hy64, rfl⟩ := digit_of_digitValue? hy
  obtain ⟨hz64, rfl⟩ := digit_of_digitValue? hz
  obtain ⟨hw64, rfl⟩ := digit_of_digitValue? hw
  have hnumber : 256 * (256 * (UInt8.ofNat (4 * x + y / 16)).toNat
        + (UInt8.ofNat (16 * y + z / 4)).toNat) + (UInt8.ofNat (64 * z + w)).toNat
      = 262144 * x + 4096 * y + 64 * z + w := by
    simp only [UInt8.toNat_ofNat']
    omega
  have hfirst : (262144 * x + 4096 * y + 64 * z + w) / 262144 = x := by omega
  have hsecond : (262144 * x + 4096 * y + 64 * z + w) / 4096 % 64 = y := by omega
  have hthird : (262144 * x + 4096 * y + 64 * z + w) / 64 % 64 = z := by omega
  have hfourth : (262144 * x + 4096 * y + 64 * z + w) % 64 = w := by omega
  simp only [List.cons_append, List.nil_append, encode, hnumber, hfirst, hsecond, hthird, hfourth]

/-- A last group is the text of its bytes, with and without padding. -/
theorem encode_of_decodeLast {a b c d : UInt8} {group : Bytes}
    (h : decodeLast a b c d = some group) : encode group = [a, b, c, d] := by
  by_cases hc : c = padding
  · -- One byte: the low bits of the second digit are left over.
    simp only [decodeLast, if_pos hc, Option.bind_eq_bind, Option.bind_eq_some_iff,
      Option.ite_none_right_eq_some, Option.some.injEq] at h
    obtain ⟨x, hx, y, hy, ⟨hd, hbits⟩, rfl⟩ := h
    obtain ⟨hx64, rfl⟩ := digit_of_digitValue? hx
    obtain ⟨hy64, rfl⟩ := digit_of_digitValue? hy
    have hbyte : (UInt8.ofNat (4 * x + y / 16)).toNat = 4 * x + y / 16 := by
      rw [UInt8.toNat_ofNat']
      omega
    have hfirst : (4 * x + y / 16) / 4 = x := by omega
    have hsecond : (4 * x + y / 16) % 4 * 16 = y := by omega
    simp only [encode, hbyte, hfirst, hsecond, hc, hd]
  · by_cases hd : d = padding
    · -- Two bytes: the low bits of the third digit are left over.
      simp only [decodeLast, if_neg hc, if_pos hd, Option.bind_eq_bind, Option.bind_eq_some_iff,
        Option.ite_none_right_eq_some, Option.some.injEq] at h
      obtain ⟨x, hx, y, hy, z, hz, hbits, rfl⟩ := h
      obtain ⟨hx64, rfl⟩ := digit_of_digitValue? hx
      obtain ⟨hy64, rfl⟩ := digit_of_digitValue? hy
      obtain ⟨hz64, rfl⟩ := digit_of_digitValue? hz
      have hnumber : 256 * (UInt8.ofNat (4 * x + y / 16)).toNat
          + (UInt8.ofNat (16 * y + z / 4)).toNat = 1024 * x + 16 * y + z / 4 := by
        simp only [UInt8.toNat_ofNat']
        omega
      have hfirst : (1024 * x + 16 * y + z / 4) / 1024 = x := by omega
      have hsecond : (1024 * x + 16 * y + z / 4) / 16 % 64 = y := by omega
      have hthird : (1024 * x + 16 * y + z / 4) % 16 * 4 = z := by omega
      simp only [encode, hnumber, hfirst, hsecond, hthird, hd]
    · have hgroup := encode_of_decodeGroup ((decodeLast_of_ne_padding hc hd a b).symm.trans h) []
      rwa [List.append_nil] at hgroup

/-- What is read as some bytes is their text, and no other text is read as them. -/
theorem encode_of_decode? {text bytes : Bytes} (h : decode? text = some bytes) :
    encode bytes = text := by
  fun_induction decode? text generalizing bytes with
  | case1 =>
    cases h
    rfl
  | case2 a b c d => exact encode_of_decodeLast h
  | case3 a b c d rest hrest ih =>
    simp only [Option.bind_eq_bind, Option.bind_eq_some_iff, Option.some.injEq] at h
    obtain ⟨group, hgroup, others, hothers, rfl⟩ := h
    rw [encode_of_decodeGroup hgroup, ih hothers]
  | case4 => cases h

/-- A text is read as some bytes exactly if it is the text that is written of them. -/
theorem decode?_eq_some_iff {text bytes : Bytes} :
    decode? text = some bytes ↔ text = encode bytes :=
  ⟨fun h => (encode_of_decode? h).symm, fun h => h ▸ decode?_encode bytes⟩

/-! ## Length -/

/-- A text has four digits for every three bytes, the last of which may be missing. -/
theorem length_encode (bytes : Bytes) : (encode bytes).length = 4 * ((bytes.length + 2) / 3) := by
  fun_induction encode bytes with
  | case1 => rfl
  | case2 a n => simp only [List.length_cons, List.length_nil]
  | case3 a b n => simp only [List.length_cons, List.length_nil]
  | case4 a b c rest n ih =>
    simp only [List.length_cons, ih]
    omega

end SealedEnvelope.Base64
