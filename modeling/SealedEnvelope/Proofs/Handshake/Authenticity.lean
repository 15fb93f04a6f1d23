import SealedEnvelope.Proofs.Envelope.RoundTrip
import SealedEnvelope.Proofs.Handshake.Conversation

/-!
# `SealedEnvelope.Proofs.Handshake.Authenticity`: what is opened was sent by the other side

The signature of an envelope covers its ciphertext and nothing else, and whoever carries the
text may cut it, extend it and respell it. Each way of doing so still leads to a
ciphertext that the other side signed, and the ciphertext leads to the payload.

Main statement:

* `Transcript.exists_letter_of_unpack`: the payload of a text that is opened, whatever the
  text, is that of a letter of the other side.
-/

set_option autoImplicit false

namespace SealedEnvelope

theorem Role.other_other (side : Role) : side.other.other = side := by
  cases side <;> rfl

namespace Transcript

open Envelope (Opening)
open Attempt (twoBytes)

/-- In a conversation between two sessions, a side that opens a text finds the payload of a
letter that the other side has written. The text may be anything, and so may the clock. It
is assumed that nothing verifies under the public key of the other side but what that
side signed in the conversation. -/
theorem exists_letter_of_unpack {s : Suite} (hdeciphers : s.Deciphers) {sessions : Role → Session}
    (hpaired : Paired s sessions) (attempts : List Attempt) {reader : Role}
    (honly : s.AcceptsOnly ((sessions reader.other).signing.verifyingKey s).bytes
      ((run s sessions attempts).signedBy reader.other))
    {now : Instant} {text : String} {payload : List Bytes}
    (h : (sessions reader).unpack s now text = .ok payload) :
    ∃ letter ∈ (run s sessions attempts).letters,
      letter.writer = reader.other ∧ letter.payload = payload
        ∧ letter.toAttempt ∈ attempts ∧ letter.toAttempt.text s sessions = .ok letter.text := by
  have hpeer := hpaired.peer reader.other
  have hkey := hpaired.key reader.other
  rw [Role.other_other] at hpeer hkey
  obtain ⟨-, -, ⟨ciphertext, signature, hencloses, htrusts, -⟩, -, -⟩ :=
    Opening.unpack_eq_ok_iff.1 h
  -- A session leaves no signature unchecked.
  obtain ⟨checked, rfl, hverify⟩ : ∃ checked : FixedBytes 64, checked.val = signature
      ∧ s.verify (sessions reader).peer.bytes ciphertext checked = true := by
    cases htrusts with
    | inl hskip => cases hskip
    | inr hchecked => exact hchecked
  rw [hpeer] at hverify
  have hfaithful := run_faithful s sessions attempts
  obtain ⟨a, hattempt, hwriter, hciphertext⟩ :=
    (hfaithful.signed _ _).1 (mem_signedBy.1 (honly _ _ hverify))
  -- The text that was opened has room for the ciphertext, so the envelope had room for it too.
  obtain ⟨sent, hwrap⟩ := Envelope.exists_wrap_of_encloses hencloses (sessions a.writer).signing
  have hsent : a.text s sessions = .ok sent := Attempt.text_eq_ok_iff.2 ⟨_, hciphertext, hwrap⟩
  -- The reader deciphers with the key of the writer, which leads to the block of that attempt.
  have hdraw : (Envelope.drawCiphertext s a.now (sessions a.writer).index
      ((sessions reader).opening now).key a.payload a.entropy).1 = .ok ciphertext := by
    show (Envelope.drawCiphertext s a.now _ (sessions reader).openingKey.val _ _).1 = _
    rw [hkey, ← hwriter]
    exact hciphertext
  obtain ⟨block, hstamps, hunpack⟩ := Opening.unpack_of_draw hdeciphers hdraw hencloses htrusts
  have hadmits : ((sessions reader).opening now).Admits s block payload :=
    Opening.payload_eq_ok_iff.1 (hunpack.symm.trans h)
  exact ⟨{ toAttempt := a, text := sent }, (hfaithful.letters _).2 ⟨hattempt, hsent⟩, hwriter,
    hstamps.carries.unique hadmits.carries, hattempt, hsent⟩

/-- Two sessions whose signing seeds are zero and one. -/
def zeroAndOne (s : Suite) : Role → Session
  | .initiator =>
    { role := .initiator, index := "p1", signing := ⟨FixedBytes.ofPrefix 32 []⟩,
      peer := SigningKey.verifyingKey s ⟨FixedBytes.ofPrefix 32 [1]⟩,
      first := FixedBytes.ofPrefix 32 [2], second := FixedBytes.ofPrefix 32 [3] }
  | .responder =>
    { role := .responder, index := "p1", signing := ⟨FixedBytes.ofPrefix 32 [1]⟩,
      peer := SigningKey.verifyingKey s ⟨FixedBytes.ofPrefix 32 []⟩,
      first := FixedBytes.ofPrefix 32 [2], second := FixedBytes.ofPrefix 32 [3] }

/-- A suite where nothing verifies but what the initiator signs to write two bytes. -/
def onlyTwoBytes (s : Suite) : Suite :=
  s.remade [FixedBytes.ofPrefix 32 []] fun _ message =>
    decide (message ∈ (run s (zeroAndOne s) [twoBytes]).signedBy .initiator)

theorem onlyTwoBytes_deciphers {s : Suite} (h : s.Deciphers) : (onlyTwoBytes s).Deciphers := h

/-- What is signed does not depend on what verifies. -/
theorem acceptsOnly_onlyTwoBytes (s : Suite) (key : FixedBytes 32) :
    (onlyTwoBytes s).AcceptsOnly key
      ((run (onlyTwoBytes s) (zeroAndOne s) [twoBytes]).signedBy Role.responder.other) := by
  intro message signature hverify
  obtain ⟨seed, -, -, hsigned, -⟩ := Suite.remade_verify_iff.1 hverify
  exact of_decide_eq_true hsigned

theorem paired_zeroAndOne (s : Suite) : Paired (onlyTwoBytes s) (zeroAndOne s) where
  peer := by
    intro side
    cases side <;> rfl
  key := by
    intro side
    cases side <;> rfl
  index := by
    intro side
    cases side <;> rfl

/-- The two bytes are found again ten seconds later. -/
theorem unpack_twoBytes {s : Suite} (hdeciphers : s.Deciphers) {text : String}
    (h : twoBytes.text s (zeroAndOne s) = .ok text) :
    (zeroAndOne s .responder).unpack (onlyTwoBytes s) (.ofUnixNanos 1700000010000000000) text
      = .ok [[1, 2]] := by
  -- The opening is given a name so that none of its fields is unfolded.
  obtain ⟨o, ho⟩ : ∃ o, o = (zeroAndOne s .responder).opening (.ofUnixNanos 1700000010000000000) :=
    ⟨_, rfl⟩
  have hprekey : o.prekey = "p1" := by rw [ho]; rfl
  have hnow : o.now = (.ofUnixNanos 1700000010000000000) := by rw [ho]; rfl
  have hkey : o.key = (zeroAndOne s .initiator).sealingKey.val := by rw [ho]; rfl
  have hpack : (Envelope.pack (onlyTwoBytes s) twoBytes.now "p1" (zeroAndOne s .initiator).signing
      o.key twoBytes.payload twoBytes.entropy).1 = .ok text := by
    rw [hkey]
    exact h
  have htrusts : ∀ ciphertext, (Envelope.drawCiphertext (onlyTwoBytes s) twoBytes.now "p1" o.key
      twoBytes.payload twoBytes.entropy).1 = .ok ciphertext →
      o.Trusts (onlyTwoBytes s) ciphertext
        ((zeroAndOne s .initiator).signing.sign (onlyTwoBytes s) ciphertext).val := by
    intro ciphertext hdraw
    rw [hkey] at hdraw
    have hsigned : ciphertext ∈ (run s (zeroAndOne s) [twoBytes]).signedBy .initiator :=
      mem_signedBy.2 (((run_faithful s (zeroAndOne s) [twoBytes]).signed _ _).2
        ⟨twoBytes, List.mem_cons_self, rfl, hdraw⟩)
    refine .inr ⟨_, rfl, Suite.remade_verify_iff.2 ⟨_, List.mem_cons_self, ?_, ?_, rfl⟩⟩
    · rw [ho]
      rfl
    · exact decide_eq_true hsigned
  obtain ⟨block, hstamps, hunpack⟩ := Opening.exists_block_of_pack
    (onlyTwoBytes_deciphers hdeciphers) hpack (Text.Respells.refl text) htrusts
  have hlater : o.now.isLeap = false := by
    rw [hnow]
    decide +kernel
  have hyoung : ¬ 300 * nanosPerSecond
      < Envelope.age (.ofUnixNanos 1700000010000000000) twoBytes.now := by
    decide +kernel
  show ((zeroAndOne s .responder).opening _).unpack _ _ = _
  rw [← ho, hunpack, Opening.payload_of_stamps (by decide +kernel) (by decide +kernel)
    (by decide +kernel) hlater hstamps, hnow, if_neg hyoung, if_neg fun h => h hprekey]
  rfl

/-- The letter of the two bytes is found from the envelope of them. -/
theorem exists_letter_of_unpack_twoBytes :
    ∃ text : String,
      (zeroAndOne .standard .responder).unpack (onlyTwoBytes .standard)
          (.ofUnixNanos 1700000010000000000) text = .ok [[1, 2]]
        ∧ ∃ letter ∈ (run (onlyTwoBytes .standard) (zeroAndOne .standard) [twoBytes]).letters,
            letter.writer = .initiator ∧ letter.payload = [[1, 2]]
              ∧ letter.toAttempt ∈ [twoBytes]
              ∧ letter.toAttempt.text (onlyTwoBytes .standard) (zeroAndOne .standard)
                = .ok letter.text := by
  have hok : (twoBytes.text .standard (zeroAndOne .standard)).isOk = true := by
    decide +kernel
  obtain ⟨text, htext⟩ := exists_of_isOk hok
  have hopen := unpack_twoBytes Suite.standard_deciphers htext
  have hdeciphers : (onlyTwoBytes .standard).Deciphers :=
    onlyTwoBytes_deciphers Suite.standard_deciphers
  refine ⟨text, hopen, ?_⟩
  exact exists_letter_of_unpack hdeciphers (paired_zeroAndOne .standard) [twoBytes]
    (acceptsOnly_onlyTwoBytes .standard _) hopen

end Transcript

end SealedEnvelope
