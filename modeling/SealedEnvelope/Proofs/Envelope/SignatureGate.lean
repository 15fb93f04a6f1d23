import Mathlib.Logic.Basic
import SealedEnvelope.Proofs.Envelope.Format

/-!
# `SealedEnvelope.Proofs.Envelope.SignatureGate`: what an unsigned envelope tells

The first steps of opening an envelope are a gate: the text, its elements and the signature are
looked at, and the key, the prekey and the clock are not. `Passes` says which texts come through
it, and `Fails` why the others do not, both without opening anything.

What lies behind the gate is the decryption, the time, the prekey and the hash. A text that does
not come through tells nothing of them, since its error is the same for all keys, prekeys and
clocks: whoever cannot sign cannot learn from the errors whether a ciphertext of theirs ends in
a padding.

Main statements:

* `fails_or_passes`: each text does the one or the other;
* `Opening.unpack_of_fails` and `Opening.unpack_of_passes`: what opening makes of it;
* `Opening.unpack_hides_unsigned`: the two together, for all openings at once.
-/

set_option autoImplicit false

namespace SealedEnvelope.Envelope

open LengthValue (encodeAll decode_eq_ok_iff readAll_eq_ok_iff)
open EnvelopeError (onWire onWire_eq_ok_iff)

variable {s : Suite} {peer : VerifyingKey} {text : String} {error : EnvelopeError}

/-! ## The gate -/

/-- Whether a byte string is a signature of a ciphertext under the key of a peer. -/
def Signs (s : Suite) (peer : VerifyingKey) (ciphertext signature : Bytes) : Prop :=
  ∃ checked : FixedBytes 64,
    checked.val = signature ∧ s.verify peer.bytes ciphertext checked = true

/-- Whether a text comes through the gate: it encloses a ciphertext that the peer has signed. -/
def Passes (s : Suite) (peer : VerifyingKey) (text : String) : Prop :=
  ∃ ciphertext signature : Bytes, Encloses text ciphertext signature
    ∧ Signs s peer ciphertext signature

/-- Why a text does not come through the gate, and the error that says so. -/
inductive Fails (s : Suite) (peer : VerifyingKey) (text : String) : EnvelopeError → Prop
  /-- It is the hexadecimal text of no bytes. -/
  | notHex : (∀ bytes : Bytes, ¬ Text.Respells text (Hex.encode bytes)) →
    Fails s peer text .invalidHex
  /-- Its bytes begin with no element. -/
  | noElement (bytes : Bytes) (fault : LengthValue.Error) :
    Text.Respells text (Hex.encode bytes) → LengthValue.decode bytes = .error fault →
    Fails s peer text (.wire fault)
  /-- The value of the element is no elements one after another. -/
  | noElements (value : Bytes) (fault : LengthValue.Error) :
    Spells text value → LengthValue.readAll value = .error fault →
    Fails s peer text (.wire fault)
  /-- They are fewer than two. -/
  | tooFew (value : Bytes) (elements : List Bytes) :
    Spells text value → encodeAll elements = .ok value → elements.length < 2 →
    Fails s peer text .invalidData
  /-- The second is no signature of the first. -/
  | unsigned (ciphertext signature : Bytes) :
    Encloses text ciphertext signature → ¬ Signs s peer ciphertext signature →
    Fails s peer text .invalidSignature

/-- Each text comes through the gate, or there is a reason why it does not. -/
theorem fails_or_passes (s : Suite) (peer : VerifyingKey) (text : String) :
    (∃ error, Fails s peer text error) ∨ Passes s peer text := by
  -- The reasons are looked for in the order in which the layers are taken off.
  by_cases hhex : ∃ bytes : Bytes, Text.Respells text (Hex.encode bytes)
  · obtain ⟨bytes, hspelling⟩ := hhex
    cases hdecode : LengthValue.decode bytes with
    | error fault => exact .inl ⟨_, .noElement bytes fault hspelling hdecode⟩
    | ok value =>
      have hspells : Spells text value := ⟨bytes, hspelling, decode_eq_ok_iff.1 hdecode⟩
      cases hread : LengthValue.readAll value with
      | error fault => exact .inl ⟨_, .noElements value fault hspells hread⟩
      | ok elements =>
        have hall := readAll_eq_ok_iff.1 hread
        match elements with
        | [] => exact .inl ⟨_, .tooFew value _ hspells hall (by decide)⟩
        | [_] => exact .inl ⟨_, .tooFew value _ hspells hall Nat.one_lt_two⟩
        | ciphertext :: signature :: extra =>
          have hencloses : Encloses text ciphertext signature := ⟨value, extra, hspells, hall⟩
          by_cases hsigns : Signs s peer ciphertext signature
          · exact .inr ⟨ciphertext, signature, hencloses, hsigns⟩
          · exact .inl ⟨_, .unsigned ciphertext signature hencloses hsigns⟩
  · exact .inl ⟨_, .notHex (not_exists.1 hhex)⟩

/-! ## What opening makes of it -/

namespace Opening

variable {o : Opening}

/-- What is trusted where signatures are checked is what the peer has signed. -/
theorem trusts_iff_signs (hchecks : o.skipVerify = false) {ciphertext signature : Bytes} :
    o.Trusts s ciphertext signature ↔ Signs s o.peer ciphertext signature :=
  or_iff_right (Bool.eq_false_iff.1 hchecks)

/-- What is signed by the peer is trusted whether or not the signature is checked. -/
theorem trusts_of_signs {ciphertext signature : Bytes}
    (h : Signs s o.peer ciphertext signature) : o.Trusts s ciphertext signature :=
  .inr h

/-- Why a text does not come through the gate is all that opening tells of it. -/
theorem ciphertext_of_fails (hchecks : o.skipVerify = false) (h : Fails s o.peer text error) :
    o.ciphertext s text = .error error := by
  cases h with
  | notHex hnone =>
    rw [ciphertext, readHex_of_forall_not hnone]
    rfl
  | noElement bytes fault hspelling hdecode =>
    rw [ciphertext, readHex_eq_ok_iff.2 hspelling]
    show (onWire (LengthValue.decode bytes)).bind _ = _
    rw [hdecode]
    rfl
  | noElements value fault hspells hread =>
    rw [ciphertext_of_spells hspells, hread]
    rfl
  | tooFew value elements hspells hall hlength =>
    rw [ciphertext_of_spells hspells, onWire_eq_ok_iff.2 (readAll_eq_ok_iff.2 hall)]
    rcases elements with _ | ⟨first, _ | ⟨second, others⟩⟩
    · rfl
    · rfl
    · exact absurd hlength (Nat.not_lt.2 (Nat.le_add_left 2 _))
  | unsigned ciphertext signature hencloses hunsigned =>
    have huntrusted : ¬ (o.skipVerify || o.peer.verifies s ciphertext signature) = true := by
      rw [trusts_iff, trusts_iff_signs hchecks]
      exact hunsigned
    rw [ciphertext_of_encloses hencloses, if_neg huntrusted]

/-- A text that does not come through the gate is refused with the error that says why. -/
theorem unpack_of_fails (hchecks : o.skipVerify = false) (h : Fails s o.peer text error) :
    o.unpack s text = .error error := by
  rw [unpack, ciphertext_of_fails hchecks h]
  rfl

/-- A text that comes through it is opened as if its signature were not looked at. -/
theorem unpack_of_passes (h : Passes s o.peer text) :
    o.unpack s text = { o with skipVerify := true }.unpack s text := by
  obtain ⟨ciphertext, signature, hencloses, hsigns⟩ := h
  have hskip : { o with skipVerify := true }.ciphertext s text = .ok ciphertext :=
    ciphertext_eq_ok_iff.2 ⟨signature, hencloses, .inl rfl⟩
  rw [unpack, unpack, ciphertext_eq_ok_iff.2 ⟨signature, hencloses, trusts_of_signs hsigns⟩, hskip]
  -- Behind the gate nothing asks any more whether signatures are checked.
  rfl

/-- No text that comes through the gate is refused at it. -/
theorem not_passes_of_fails (h : Fails s peer text error) : ¬ Passes s peer text := by
  rintro ⟨ciphertext, signature, hencloses, hsigns⟩
  let o : Opening := { prekey := "", peer := peer, key := [], now := .ofUnixNanos 0 }
  have hfound : o.ciphertext s text = .ok ciphertext :=
    ciphertext_eq_ok_iff.2 ⟨signature, hencloses, trusts_of_signs hsigns⟩
  rw [ciphertext_of_fails (o := o) rfl h] at hfound
  cases hfound

/-- The signature hides all that is behind it. A text does not come through the gate, and then
it is refused with one error, the same for all keys, prekeys and clocks; or it comes through,
and then it is opened, with any key, prekey and clock, as if its signature were not looked at.
So padding, time, prekey and hash decide the outcome of signed envelopes only. -/
theorem unpack_hides_unsigned (s : Suite) (peer : VerifyingKey) (text : String) :
    Xor
      (∃ error, Fails s peer text error ∧ ∀ (prekey : String) (key : Bytes) (now : Instant),
        ({ prekey, peer, key, now, skipVerify := false } : Opening).unpack s text = .error error)
      (Passes s peer text ∧ ∀ (prekey : String) (key : Bytes) (now : Instant),
        ({ prekey, peer, key, now, skipVerify := false } : Opening).unpack s text
          = ({ prekey, peer, key, now, skipVerify := true } : Opening).unpack s text) := by
  rcases fails_or_passes s peer text with ⟨error, hfails⟩ | hpasses
  · refine .inl ⟨⟨error, hfails, fun prekey key now => unpack_of_fails rfl hfails⟩, ?_⟩
    rintro ⟨hpasses, -⟩
    exact not_passes_of_fails hfails hpasses
  · refine .inr ⟨⟨hpasses, fun prekey key now => unpack_of_passes hpasses⟩, ?_⟩
    rintro ⟨error, hfails, -⟩
    exact not_passes_of_fails hfails hpasses

end Opening

end SealedEnvelope.Envelope
