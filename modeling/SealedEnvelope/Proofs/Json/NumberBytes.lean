import SealedEnvelope.Proofs.Json.Leaves

/-!
# `SealedEnvelope.Proofs.Json.NumberBytes`: the bytes that numbers are made of

All numbers are written with digits, signs, points and the letter of an exponent, and the reader
passes over no other bytes when it reads a number. None of these bytes has a meaning between
values, so that a number never runs into what follows it.

Main statements:

* `NumberText.passes_scan?`: what is read of a number is made of such bytes;
* `IsNumberText.text`: what is written of a number is, whether it is an integer or not.
-/

set_option autoImplicit false

namespace SealedEnvelope

open Utf8 (encodeChar encodeChars)

/-! ## The bytes of numbers -/

namespace NumberText

/-- Whether numbers have this byte in them: a digit, a sign, a point, or the letter of an
exponent. -/
def isNumberByte (b : UInt8) : Bool :=
  (digit? b).isSome || b == 0x2B || b == 0x2D || b == 0x2E || b == 0x45 || b == 0x65

/-- A byte of a number is none that has another meaning between values, and begins no value but
a number. -/
theorem ne_of_isNumberByte : ∀ b : UInt8, isNumberByte b = true →
    0x20 < b.toNat ∧ b ≠ 0x2C ∧ b ≠ 0x5D ∧ b ≠ 0x7D ∧ b ≠ 0x5B ∧ b ≠ 0x7B
      ∧ b ≠ 0x22 ∧ b ≠ 0x6E ∧ b ≠ 0x74 ∧ b ≠ 0x66 := by
  apply forall_byte
  decide +kernel

/-- Whether a text is some bytes of numbers and then the rest. -/
def Passes (text rest : Bytes) : Prop :=
  ∃ passed, text = passed ++ rest ∧ ∀ b ∈ passed, isNumberByte b = true

theorem passes_refl (text : Bytes) : Passes text text := ⟨[], rfl, nofun⟩

theorem Passes.cons {text rest : Bytes} (h : Passes text rest) {b : UInt8}
    (hb : isNumberByte b = true) : Passes (b :: text) rest := by
  obtain ⟨passed, rfl, hpassed⟩ := h
  refine ⟨b :: passed, rfl, ?_⟩
  intro c hc
  rcases List.mem_cons.1 hc with rfl | hc
  · exact hb
  · exact hpassed c hc

theorem Passes.trans {text middle rest : Bytes} (h : Passes text middle) (h' : Passes middle rest) :
    Passes text rest := by
  obtain ⟨passed, rfl, hpassed⟩ := h
  obtain ⟨passed', rfl, hpassed'⟩ := h'
  refine ⟨passed ++ passed', (List.append_assoc ..).symm, ?_⟩
  intro b hb
  rcases List.mem_append.1 hb with hb | hb
  · exact hpassed b hb
  · exact hpassed' b hb

theorem isNumberByte_of_digit? {b : UInt8} {d : Nat} (h : digit? b = some d) :
    isNumberByte b = true := by
  simp [isNumberByte, h]

theorem passes_takeDigits (text : Bytes) : Passes text (takeDigits text).2 := by
  induction text with
  | nil => exact passes_refl []
  | cons b text ih =>
    rw [takeDigits]
    cases hdigit : digit? b with
    | none => exact passes_refl _
    | some d => exact ih.cons (isNumberByte_of_digit? hdigit)

theorem passes_takeSomeDigits? {text rest : Bytes} {digits : List Nat}
    (h : takeSomeDigits? text = some (digits, rest)) : Passes text rest := by
  have hpasses := passes_takeDigits text
  rw [takeSomeDigits?] at h
  split at h
  · cases h
  · rw [Option.some.inj h] at hpasses
    exact hpasses

theorem passes_scanFraction? {text rest : Bytes} {digits : List Nat}
    (h : scanFraction? text = some (digits, rest)) : Passes text rest := by
  unfold scanFraction? at h
  split at h
  · exact (passes_takeSomeDigits? h).cons (by decide)
  · cases h
    exact passes_refl text

theorem passes_scanExponent? {text rest : Bytes} {exponent : Option Int}
    (h : scanExponent? text = some (exponent, rest)) : Passes text rest := by
  unfold scanExponent? at h
  split at h
  · cases h
    exact passes_refl []
  · next b text =>
    split at h
    · next hletter =>
      have hb : isNumberByte b = true := by
        rcases hletter with rfl | rfl <;> decide
      simp only [Option.bind_eq_bind, Option.bind_eq_some_iff] at h
      obtain ⟨⟨digits, after⟩, hdigits, hafter⟩ := h
      cases hafter
      -- The exponent may have a sign, which is passed too.
      refine Passes.cons ?_ hb
      split at hdigits
      · exact (passes_takeSomeDigits? hdigits).cons (by decide)
      · exact (passes_takeSomeDigits? hdigits).cons (by decide)
      · exact passes_takeSomeDigits? hdigits
    · cases h
      exact passes_refl _

/-- What is read of a number is made of bytes of numbers. -/
theorem passes_scan? {text rest : Bytes} {number : NumberText}
    (h : scan? text = some (number, rest)) : Passes text rest := by
  unfold scan? at h
  simp only [Option.bind_eq_bind, Option.bind_eq_some_iff] at h
  obtain ⟨⟨whole, afterWhole⟩, hwhole, h⟩ := h
  split at h
  · cases h
  · simp only [Option.bind_eq_some_iff] at h
    obtain ⟨⟨fraction, afterFraction⟩, hfraction, ⟨exponent, after⟩, hexponent, hafter⟩ := h
    have hrest : Passes afterWhole after :=
      (passes_scanFraction? hfraction).trans (passes_scanExponent? hexponent)
    have hend : after = rest := (Prod.mk.inj (Option.some.inj hafter)).2
    rw [hend] at hrest
    -- A minus may come first.
    split at hwhole
    · exact ((passes_takeSomeDigits? hwhole).trans hrest).cons (by decide)
    · exact (passes_takeSomeDigits? hwhole).trans hrest

end NumberText

/-! ## The text of numbers -/

open NumberText (isNumberByte)

/-- Whether a text is made of characters that numbers are made of. -/
def IsNumberText (text : String) : Prop :=
  ∀ c ∈ text.toList, c.toNat < 0x80 ∧ isNumberByte (UInt8.ofNat c.toNat) = true

namespace IsNumberText

theorem append {a b : String} (ha : IsNumberText a) (hb : IsNumberText b) :
    IsNumberText (a ++ b) := by
  intro c hc
  rw [String.toList_append] at hc
  rcases List.mem_append.1 hc with hc | hc
  · exact ha c hc
  · exact hb c hc

/-- A text that is given can be looked through. -/
theorem of_all {text : String}
    (h : (text.toList.all fun c => c.toNat < 0x80 && isNumberByte (UInt8.ofNat c.toNat)) = true) :
    IsNumberText text := by
  intro c hc
  have hchar := List.all_eq_true.1 h c hc
  rw [Bool.and_eq_true, decide_eq_true_eq] at hchar
  exact hchar

theorem of_digits {digits : List Char} (h : ∀ c ∈ digits, c.isDigit = true) :
    IsNumberText (String.ofList digits) := by
  have hbyte : ∀ n, n < 58 → 48 ≤ n → isNumberByte (UInt8.ofNat n) = true := by decide
  intro c hc
  rw [String.toList_ofList] at hc
  have hdigit := Char.isDigit_iff_toNat.1 (h c hc)
  have hle : c.toNat ≤ 57 := hdigit.2
  exact ⟨by omega, hbyte c.toNat (by omega) hdigit.1⟩

theorem render (n : Nat) : IsNumberText (Numeral.render n) :=
  of_digits fun _ hc => Nat.isDigit_of_mem_toDigits (by decide) (by decide) hc

theorem renderInt (n : Int) : IsNumberText (Numeral.renderInt n) := by
  have hminus : IsNumberText "-" := of_all (by decide)
  rw [Numeral.renderInt]
  split
  · exact hminus.append (render _)
  · exact render _

/-- A number that is no integer is written with digits, signs, a point and the letter of an
exponent. -/
theorem renderReal (x : Binary64) : IsNumberText x.render := by
  have hempty : IsNumberText "" := nofun
  have hminus : IsNumberText "-" := of_all (by decide)
  have hplus : IsNumberText "+" := of_all (by decide)
  have hpoint : IsNumberText "." := of_all (by decide)
  have hletter : IsNumberText "e" := of_all (by decide)
  have hzero : IsNumberText "0.0" := of_all (by decide)
  have hbefore : IsNumberText "0." := of_all (by decide)
  have hafter : IsNumberText ".0" := of_all (by decide)
  have hsign : IsNumberText (if x.negative then "-" else "") := by
    split
    · exact hminus
    · exact hempty
  have hdigits : ∀ c ∈ Nat.toDigits 10 x.shortest.digits, c.isDigit = true :=
    fun c hc => Nat.isDigit_of_mem_toDigits (by decide) (by decide) hc
  have hzeros : ∀ n : Nat, ∀ c ∈ List.replicate n '0', c.isDigit = true := by
    intro n c hc
    rw [List.eq_of_mem_replicate hc]
    decide
  unfold Binary64.render
  by_cases hx : x.isZero = true
  · rw [if_pos hx]
    exact hsign.append hzero
  · rw [if_neg hx]
    refine hsign.append ?_
    split
    · exact hbefore.append (of_digits (List.forall_mem_append.2 ⟨hzeros _, hdigits⟩))
    · split
      · split
        · exact (of_digits (List.forall_mem_append.2 ⟨hdigits, hzeros _⟩)).append hafter
        · exact ((of_digits fun c hc => hdigits c (List.mem_of_mem_take hc)).append hpoint).append
            (of_digits fun c hc => hdigits c (List.mem_of_mem_drop hc))
      · refine ((((of_digits fun c hc => hdigits c (List.mem_of_mem_take hc)).append ?_).append
          hletter).append ?_).append (render _)
        · split
          · exact hempty
          · exact hpoint.append (of_digits fun c hc => hdigits c (List.mem_of_mem_drop hc))
        · split
          · exact hminus
          · exact hplus

/-- A number that is no integer is not written as nothing: there is a point in it, or the letter
of an exponent. -/
theorem renderReal_ne_empty (x : Binary64) : x.render ≠ "" := by
  have hleft : ∀ a b : String, a ≠ "" → a ++ b ≠ "" :=
    fun a b ha hab => ha (String.append_eq_empty_iff.1 hab).1
  have hright : ∀ a b : String, b ≠ "" → a ++ b ≠ "" :=
    fun a b hb hab => hb (String.append_eq_empty_iff.1 hab).2
  unfold Binary64.render
  by_cases hx : x.isZero = true
  · rw [if_pos hx]
    exact hright _ _ (by decide)
  · rw [if_neg hx]
    refine hright _ _ ?_
    split
    · exact hleft _ _ (by decide)
    · split
      · split
        · exact hright _ _ (by decide)
        · exact hleft _ _ (hright _ _ (by decide))
      · exact hleft _ _ (hleft _ _ (hright _ _ (by decide)))

/-- The text of every number is one. -/
theorem text (n : JsonNumber) : IsNumberText n.text := by
  cases n with
  | integer n bounds => exact renderInt n
  | real x => exact renderReal x

/-- The bytes of such a text are bytes of numbers. -/
theorem isNumberByte_of_mem {text : String} (h : IsNumberText text) {b : UInt8}
    (hb : b ∈ encodeChars text.toList) : isNumberByte b = true := by
  obtain ⟨c, hc, hb⟩ := List.mem_flatMap.1 hb
  obtain ⟨hlow, hnumber⟩ := h c hc
  rw [Utf8.encodeChar_of_lt hlow, List.mem_singleton] at hb
  exact hb ▸ hnumber

end IsNumberText

/-- No number is written as nothing. -/
theorem JsonNumber.text_ne_empty (n : JsonNumber) : n.text ≠ "" := by
  cases n with
  | real x => exact IsNumberText.renderReal_ne_empty x
  | integer n bounds =>
    obtain ⟨b, bytes, hbegins, -⟩ := NumberText.renderInt_begins n
    intro h
    change Numeral.renderInt n = "" at h
    rw [h] at hbegins
    cases hbegins

/-- A number begins with a byte of a number. -/
theorem JsonNumber.exists_eq_cons (n : JsonNumber) :
    ∃ b bytes, encodeChars n.text.toList = b :: bytes ∧ isNumberByte b = true := by
  cases htext : n.text.toList with
  | nil => exact absurd (String.toList_eq_nil_iff.1 htext) n.text_ne_empty
  | cons c chars =>
    have hmem : c ∈ n.text.toList := by
      rw [htext]
      exact List.mem_cons_self
    obtain ⟨hlow, hnumber⟩ := IsNumberText.text n c hmem
    refine ⟨UInt8.ofNat c.toNat, encodeChars chars, ?_, hnumber⟩
    rw [Utf8.encodeChars_cons, Utf8.encodeChar_of_lt hlow]
    rfl

end SealedEnvelope
