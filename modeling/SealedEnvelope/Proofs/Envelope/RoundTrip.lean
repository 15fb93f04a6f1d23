import SealedEnvelope.Proofs.Crypto.Standard
import SealedEnvelope.Proofs.Envelope.Sealing
import SealedEnvelope.Proofs.Time.Timestamp

/-!
# `SealedEnvelope.Proofs.Envelope.RoundTrip`: opening what was made

Whoever has the key finds the payload of an envelope again, unless the envelope is too old
or is for another prekey. The time of a data block is written as text in whole
milliseconds, so that an envelope is up to a millisecond older than its maker knows.

Main statement:

* `Opening.unpack_pack`: the outcome of opening an envelope, for every payload, every two
  clocks and every two prekeys, in any spelling of the text.
-/

set_option autoImplicit false

namespace SealedEnvelope

/-- Texts with the same bytes are the same. -/
theorem Utf8.encode_inj {text text' : String} (h : encode text = encode text') : text = text' := by
  have hdecode := decode?_encode text
  rw [h, decode?_encode, Option.some.injEq] at hdecode
  exact hdecode.symm

namespace Envelope

/-- The age of an envelope in nanoseconds: its time is cut to whole milliseconds. -/
def age (later now : Instant) : Int := later.unixNanos - now.unixNanos / 1000000 * 1000000

namespace Opening

variable {s : Suite} {now : Instant} {prekey : String} {payload : List Bytes}

/-- A data block made for a payload gives it back, if it is young enough and for the right
prekey. -/
theorem payload_of_stamps (hnow : now.isLeap = false) (hyear : 0 ≤ now.year)
    (hyear' : now.year ≤ 9999) {o : Opening} (hlater : o.now.isLeap = false) {block : DataBlock}
    (hstamps : Stamps s now prekey payload block) :
    o.payload s block
      = if 300 * nanosPerSecond < age o.now now then
          .error (.timeExpired (age o.now now / nanosPerSecond))
        else if o.prekey ≠ prekey then .error .invalidPrekey
        else .ok payload := by
  have hstamp : block.timestamp = .ok now.floorMillis := by
    rw [DataBlock.timestamp, hstamps.time, DataBlock.readTime?_writeMillis hyear hyear',
      Instant.written_of_not_leap hnow]
  have hage : o.now.since now.floorMillis = age o.now now := by
    rw [Instant.since_eq_sub hlater (now.isLeap_floorMillis.trans hnow),
      Instant.unixNanos_floorMillis, age]
  have hprekey : block.prekey ≠ Utf8.encode o.prekey ↔ o.prekey ≠ prekey := by
    rw [hstamps.forPrekey]
    exact not_congr ⟨fun h => (Utf8.encode_inj h).symm, fun h => h ▸ rfl⟩
  have hhash : ¬ ¬ block.hashMatches s = true := by
    rw [DataBlock.hashMatches, beq_iff_eq, Decidable.not_not]
    exact hstamps.hashed.symm
  have hcarries := carries_iff.2 hstamps.carries
  rw [payload_of_timestamp hstamp, hage]
  by_cases hold : lifetime * nanosPerSecond < age o.now now
  · -- An age beyond the lifetime is positive, so that rounding to zero is rounding down.
    have hseconds : (age o.now now).tdiv nanosPerSecond = age o.now now / nanosPerSecond := by
      refine Int.tdiv_eq_ediv_of_nonneg ?_
      rw [lifetime, nanosPerSecond] at hold
      omega
    rw [if_pos hold, hseconds]
    exact (if_pos hold).symm
  · rw [if_neg hold]
    refine Eq.trans ?_ (if_neg hold).symm
    by_cases hother : o.prekey ≠ prekey
    · rw [if_pos (hprekey.2 hother), if_pos hother]
    · rw [if_neg (fun h => hother (hprekey.1 h)), if_neg hother, if_neg hhash, hcarries]

/-- The envelope of a payload is opened to the payload by every opening with its key and the
public key of its signer. An age of more than 300 seconds is told first, in whole seconds,
and then another prekey. Neither the case of the letters nor white space around the text
matters, and a signature that is left unchecked changes nothing. -/
theorem unpack_pack (hdeciphers : s.Deciphers) {signing : SigningKey}
    (haccepts : s.AcceptsOwn signing.seed) (hnow : now.isLeap = false) (hyear : 0 ≤ now.year)
    (hyear' : now.year ≤ 9999) {o : Opening} (hlater : o.now.isLeap = false)
    (hpeer : o.peer = signing.verifyingKey s) {e : Entropy} {text spelling : String}
    (hpack : (pack s now prekey signing o.key payload e).1 = .ok text)
    (hspelling : Text.Respells spelling text) :
    o.unpack s spelling
      = if 300 * nanosPerSecond < age o.now now then
          .error (.timeExpired (age o.now now / nanosPerSecond))
        else if o.prekey ≠ prekey then .error .invalidPrekey
        else .ok payload := by
  obtain ⟨block, hstamps, hunpack⟩ := exists_block_of_pack hdeciphers hpack hspelling
    fun ciphertext _ => trusts_of_acceptsOwn hpeer haccepts ciphertext
  rw [hunpack]
  exact payload_of_stamps hnow hyear hyear' hlater hstamps

/-- An opening for the prekey `p1`, nine seconds after the envelope below is made. -/
def nineSecondsLater : Opening where
  prekey := "p1"
  peer := SigningKey.verifyingKey .twoSigners ⟨FixedBytes.ofPrefix 32 []⟩
  key := List.replicate 16 7
  now := .ofUnixNanos 1700000009000000000

/-- An envelope of two elements is opened to them, the one of them empty. -/
theorem unpack_pack_nine_seconds :
    ∃ text : String,
      (pack .twoSigners (.ofUnixNanos 1700000000123456789) "p1" ⟨FixedBytes.ofPrefix 32 []⟩
          nineSecondsLater.key [[1, 2], []] (.ofBytes (List.replicate 48 9))).1 = .ok text
        ∧ nineSecondsLater.unpack .twoSigners text = .ok [[1, 2], []] := by
  -- The envelope is made by computation, and opened by the theorem.
  have hok : (pack .twoSigners (.ofUnixNanos 1700000000123456789) "p1"
      ⟨FixedBytes.ofPrefix 32 []⟩ nineSecondsLater.key [[1, 2], []]
      (.ofBytes (List.replicate 48 9))).1.isOk = true := by
    decide +kernel
  have hyoung : ¬ 300 * nanosPerSecond
      < age nineSecondsLater.now (.ofUnixNanos 1700000000123456789) := by
    decide +kernel
  obtain ⟨text, htext⟩ := exists_of_isOk hok
  refine ⟨text, htext, ?_⟩
  rw [unpack_pack (o := nineSecondsLater) Suite.twoSigners_deciphers
    Suite.twoSigners_acceptsOwn_zero (by decide +kernel) (by decide +kernel) (by decide +kernel)
    (by decide +kernel) rfl htext (Text.Respells.refl text), if_neg hyoung, if_neg (by decide)]

end Opening

end Envelope

end SealedEnvelope
