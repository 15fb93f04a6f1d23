import SealedEnvelope.Proofs.Envelope.RoundTrip
import SealedEnvelope.Proofs.Time.TimeField

/-!
# `SealedEnvelope.Proofs.Envelope.InTime`: when an envelope can be opened

`RoundTrip` tells the age of an envelope as a difference of nanoseconds, which it is outside of
leap seconds and in the years 0 to 9999. Here nothing is asked of either clock. Whether an envelope
is opened is then a question of its stamp alone (`InTime`): the year has four digits, so that the
stamp is read at all, and the difference that is taken of the clock and what the stamp is read as,
leap seconds and all, is at most five minutes.

Main statements:

* `Opening.unpack_pack_eq_ok_iff`: an envelope is opened to its payload exactly in time;
* `inTime_of_le`: outside of leap seconds 299 seconds are in time.
-/

set_option autoImplicit false

namespace SealedEnvelope

namespace Envelope

/-- Whether an envelope that is made at one time can still be opened at another. The stamp is what
its text spells, cut to whole milliseconds. -/
def InTime (now later : Instant) : Prop :=
  (0 ≤ now.year ∧ now.year ≤ 9999) ∧ later.since now.written.floorMillis ≤ 300 * nanosPerSecond

instance (now later : Instant) : Decidable (InTime now later) :=
  inferInstanceAs (Decidable (_ ∧ _))

/-- What the cut takes off is less than the second that is left over. -/
theorem inTime_of_le {now later : Instant} (hnow : now.isLeap = false) (hyear : 0 ≤ now.year)
    (hyear' : now.year ≤ 9999) (hlater : later.isLeap = false)
    (hage : later.unixNanos - now.unixNanos ≤ 299 * nanosPerSecond) : InTime now later := by
  refine ⟨⟨hyear, hyear'⟩, ?_⟩
  rw [Instant.written_of_not_leap hnow,
    Instant.since_eq_sub hlater (now.isLeap_floorMillis.trans hnow), Instant.unixNanos_floorMillis]
  rw [nanosPerSecond] at hage ⊢
  omega

section
variable {s : Suite} {now : Instant} {prekey : String} {payload : List Bytes}

/-- The stamp of a data block is read in the years 0 to 9999, as what the time that it was made at
is written as. -/
theorem Stamps.readTime?_eq_some_iff {block : DataBlock} (h : Stamps s now prekey payload block)
    {stamped : Instant} :
    DataBlock.readTime? block.time = some stamped
      ↔ (0 ≤ now.year ∧ now.year ≤ 9999) ∧ now.written.floorMillis = stamped := by
  rw [h.time]
  by_cases hyear : 0 ≤ now.year ∧ now.year ≤ 9999
  · simp only [DataBlock.readTime?_writeMillis hyear.1 hyear.2, Option.some.injEq, hyear, true_and]
  · -- The text of any other year begins with a sign, and is too long to be a number instead.
    refine iff_of_false (fun hread => ?_) fun hread => hyear hread.1
    have hnone := DataBlock.timestamp_setTime_eq_error block hyear
    have htime : (block.setTime now).time = Utf8.encode (Rfc3339.writeMillis now) := by
      rw [DataBlock.setTime]
    rw [DataBlock.timestamp, htime, hread] at hnone
    cases hnone

namespace Opening

/-- A data block made for a payload gives it back exactly for its own prekey and in time. -/
theorem payload_of_stamps_eq_ok_iff {o : Opening} {block : DataBlock}
    (hstamps : Stamps s now prekey payload block) :
    o.payload s block = .ok payload ↔ o.prekey = prekey ∧ InTime now o.now := by
  rw [payload_eq_ok_iff]
  constructor
  · intro h
    obtain ⟨stamped, hread, hage⟩ := h.inTime
    obtain ⟨hyear, rfl⟩ := hstamps.readTime?_eq_some_iff.1 hread
    have hprekey : Utf8.encode o.prekey = Utf8.encode prekey :=
      h.forPrekey.symm.trans hstamps.forPrekey
    exact ⟨Utf8.encode_inj hprekey, hyear, hage⟩
  · rintro ⟨hprekey, hyear, hage⟩
    exact {
      inTime := ⟨_, hstamps.readTime?_eq_some_iff.2 ⟨hyear, rfl⟩, hage⟩
      forPrekey := hprekey ▸ hstamps.forPrekey
      hashed := hstamps.hashed
      carries := hstamps.carries }

/-- The envelope of a payload, in any spelling, is opened to the payload by an opening with its key
and the public key of its signer exactly for its own prekey and in time. -/
theorem unpack_pack_eq_ok_iff (hdeciphers : s.Deciphers) {signing : SigningKey}
    (haccepts : s.AcceptsOwn signing.seed) {o : Opening} (hpeer : o.peer = signing.verifyingKey s)
    {e : Entropy} {text spelling : String}
    (hpack : (pack s now prekey signing o.key payload e).1 = .ok text)
    (hspelling : Text.Respells spelling text) :
    o.unpack s spelling = .ok payload ↔ o.prekey = prekey ∧ InTime now o.now := by
  obtain ⟨block, hstamps, hunpack⟩ := exists_block_of_pack hdeciphers hpack hspelling
    fun ciphertext _ => trusts_of_acceptsOwn hpeer haccepts ciphertext
  rw [hunpack]
  exact payload_of_stamps_eq_ok_iff hstamps

end Opening

end

end Envelope

end SealedEnvelope
